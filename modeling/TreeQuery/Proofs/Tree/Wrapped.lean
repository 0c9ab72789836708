import TreeQuery.Proofs.Tree.Missing

/-!
# Names that are wrapped

A heritage clause and an array pattern are built from a list of names. The builder adds two
nodes for each name, the word and a node around it, and then one node around all of these.
So the nodes of one call are a block of consecutive numbers, and where in the block a node
stands tells what it is. At the even places are the words, at the odd places the nodes around
them, and at the last place is the node that is handed back.

The links are as one would draw them. A word stands below its wrapper, and a wrapper below
the last node, which is too new to stand below anything. Before the last node is there the
wrappers stand below nothing. `Wrapped` leaves open what they stand below, so that it can be
carried through the loop and beyond it.

None of the new nodes refers to a node that was there before. So the block is put behind the
old nodes, and these remain exactly as they were.

## Main definitions

* `Draft.wrap`: The draft in which one more name is wrapped.
* `Wrapped`: The block of nodes for a list of names.
* `SpelledOut`: The block, closed by a node around all of it.

## Theorems

* `Draft.getElem?_wrap`: The cells after one name has been wrapped.
* `wrapped_of_edit`: What the loop over the names adds.
* `Wrapped.extend`: What the last node changes.
* `Wrapped.exists_parent`: All nodes of the block stand below one of them or below the last.
* `names_are_spelled_out`: What the two builders add.
-/

namespace TreeQuery

/-- The draft with two more nodes, a name and a node around it. -/
def Draft.wrap (draft : Draft) (around : NodeId → Form) (name : String) : Draft :=
  (draft.extend (.identifier name) .none).extend (around draft.size) .none

/-- The nodes of the second draft begin with those of the first, followed by two for each name: the
    word, and a node around it. The latter have the given parent. -/
structure Wrapped (draft next : Draft) (around : NodeId → Form) (names : List String)
    (parent : Option NodeId) : Prop where
  kept : ∀ id : Nat, id < draft.size → next.cells[id]? = draft.cells[id]?
  word_eq : ∀ (place : Nat) name, names[place]? = some name →
    next.cells[draft.size + 2 * place]? =
      some ⟨.identifier name, .none, some (draft.size + 2 * place + 1), {}⟩
  wrapper_eq : ∀ place : Nat, place < names.length →
    next.cells[draft.size + 2 * place + 1]? =
      some ⟨around (draft.size + 2 * place), .none, parent, {}⟩

/-- The nodes of the second draft are those of the first, followed by two for each name, and by one
    around all the names. -/
structure SpelledOut (draft next : Draft) (names : List String) (around : NodeId → Form)
    (whole : List NodeId → Form) : Prop where
  size_eq : next.size = draft.size + (2 * names.length + 1)
  wrapped : Wrapped draft next around names (some (draft.size + 2 * names.length))
  whole_eq : next.cells[draft.size + 2 * names.length]? =
    some ⟨whole (wrappers draft.size names.length), .none, none, {}⟩
  exists_parent : ∀ id : Nat, draft.size ≤ id → id < draft.size + 2 * names.length →
    ∃ cell, ∃ parent : Nat, next.cells[id]? = some cell ∧ cell.parent = some parent ∧
      draft.size ≤ parent ∧ parent < next.size

variable {draft next : Draft} {around : NodeId → Form} {whole : List NodeId → Form}
  {names : List String}

@[simp] theorem Draft.size_wrap (draft : Draft) (around : NodeId → Form) (name : String) :
    (draft.wrap around name).size = draft.size + 2 := by
  rw [wrap, size_extend, size_extend]

-- An addition leaves alone what is there, the children of the new node apart.
theorem Draft.getElem?_extend_of_not_mem {draft : Draft} {form : Form} {id : Nat}
    (hid : id ≠ draft.size) (hchild : id ∉ form.children) (modifiers : ModifierFlags) :
    (draft.extend form modifiers).cells[id]? = draft.cells[id]? := by
  rw [getElem?_extend, if_neg hid]
  simp only [hchild, if_false, Option.map_id']

/-- After one name has been wrapped there are two more nodes, and the first of them stands below
    the second. -/
theorem Draft.getElem?_wrap (haround : ∀ id, (around id).children = [id]) (draft : Draft)
    (name : String) (id : Nat) :
    (draft.wrap around name).cells[id]? =
      if id = draft.size + 1 then some ⟨around draft.size, .none, none, {}⟩
      else if id = draft.size then some ⟨.identifier name, .none, some (draft.size + 1), {}⟩
      else draft.cells[id]? := by
  by_cases hword : id = draft.size
  · rw [if_neg (by omega), if_pos hword, wrap, getElem?_extend, getElem?_extend, size_extend,
      haround, if_neg (by omega), if_pos hword, Option.map_some,
      if_pos (List.mem_singleton.mpr hword)]
  · have hchild : id ∉ (around draft.size).children := by
      rwa [haround, List.mem_singleton]
    rw [if_neg hword, wrap]
    by_cases hwrapper : id = draft.size + 1
    · rw [if_pos hwrapper, getElem?_extend, size_extend, if_pos hwrapper]
    · rw [if_neg hwrapper, getElem?_extend_of_not_mem (by rwa [size_extend]) hchild,
        getElem?_extend_of_not_mem hword List.not_mem_nil]

-- The block for the other names starts behind the two nodes for the first.
theorem Wrapped.cons (haround : ∀ id, (around id).children = [id]) {name : String}
    {rest : List String} (h : Wrapped (draft.wrap around name) next around rest none) :
    Wrapped draft next around (name :: rest) none := by
  have hfirst : ∀ id : Nat, id < draft.size + 2 →
      next.cells[id]? = (draft.wrap around name).cells[id]? := by
    intro id hid
    exact h.kept id (by rwa [Draft.size_wrap])
  have hstart : ∀ place : Nat,
      draft.size + 2 * (place + 1) = (draft.wrap around name).size + 2 * place := by
    intro place
    rw [Draft.size_wrap]
    omega
  refine ⟨fun id hid => ?_, fun place word hword => ?_, fun place hplace => ?_⟩
  · rw [hfirst id (by omega), Draft.getElem?_wrap haround, if_neg (by omega), if_neg (by omega)]
  · cases place with
    | zero =>
        rw [List.getElem?_cons_zero, Option.some.injEq] at hword
        change next.cells[draft.size]? = some ⟨.identifier word, .none, some (draft.size + 1), {}⟩
        rw [hfirst _ (by omega), Draft.getElem?_wrap haround, if_neg (by omega), if_pos rfl, hword]
    | succ place =>
        rw [hstart]
        exact h.word_eq place word hword
  · cases place with
    | zero =>
        change next.cells[draft.size + 1]? = some ⟨around draft.size, .none, none, {}⟩
        rw [hfirst _ (by omega), Draft.getElem?_wrap haround, if_pos rfl]
    | succ place =>
        rw [hstart]
        exact h.wrapper_eq place (Nat.lt_of_succ_lt_succ hplace)

/-- The loop over the names adds the block for them, in which the wrappers have no parent yet. The
    induction is on the names. -/
theorem wrapped_of_edit (haround : ∀ id, (around id).children = [id])
    (h : draft.edit (wrappedEdits around draft.size names) = .ok next) :
    Wrapped draft next around names none := by
  induction names generalizing draft with
  | nil =>
      rw [wrappedEdits, edit_nil, Except.ok.injEq] at h
      subst h
      exact ⟨fun _ _ => rfl, fun _ _ hname => absurd hname (by simp),
        fun _ hplace => absurd hplace (Nat.not_lt_zero _)⟩
  | cons name rest ih =>
      rcases (edit_cons_eq_ok_iff ..).mp h with ⟨named, hname, hrest⟩
      rcases (edit_cons_eq_ok_iff ..).mp hrest with ⟨middle, hwrapper, hrest⟩
      rcases (edit_add_eq_ok_iff ..).mp hname with ⟨_, rfl⟩
      rcases (edit_add_eq_ok_iff ..).mp hwrapper with ⟨_, rfl⟩
      rw [← draft.size_wrap around name] at hrest
      exact (ih hrest).cons haround

-- Whether it is a word or a wrapper is told by its place in the block.
theorem Wrapped.exists_parent {last : Nat} (h : Wrapped draft next around names (some last))
    (hlast : draft.size + 2 * names.length ≤ last) {id : Nat} (hstart : draft.size ≤ id)
    (hend : id < draft.size + 2 * names.length) :
    ∃ cell, ∃ parent : Nat, next.cells[id]? = some cell ∧ cell.parent = some parent ∧
      draft.size ≤ parent ∧ parent ≤ last := by
  have hsplit : ∃ place, id = draft.size + 2 * place ∨ id = draft.size + 2 * place + 1 :=
    ⟨(id - draft.size) / 2, by omega⟩
  rcases hsplit with ⟨place, rfl | rfl⟩
  · have hname : place < names.length := by omega
    refine ⟨_, draft.size + 2 * place + 1, h.word_eq place _ (List.getElem?_eq_getElem hname), rfl,
      by omega, by omega⟩
  · exact ⟨_, last, h.wrapper_eq place (by omega), rfl, by omega, Nat.le_refl last⟩

-- Every second number, starting with the second one.
theorem mem_wrappers_iff (size count id : Nat) :
    id ∈ wrappers size count ↔ ∃ place < count, id = size + 2 * place + 1 := by
  simp only [wrappers, List.mem_map, List.mem_range, eq_comm]

/-- A node around all the wrappers becomes their parent, and changes nothing else. -/
theorem Wrapped.extend (hwhole : ∀ ids, (whole ids).children = ids)
    (h : Wrapped draft next around names none)
    (hsize : next.size = draft.size + 2 * names.length) :
    Wrapped draft (next.extend (whole (wrappers draft.size names.length)) .none) around names
      (some (draft.size + 2 * names.length)) := by
  have hleft : ∀ id : Nat, id < next.size → id ∉ wrappers draft.size names.length →
      (next.extend (whole (wrappers draft.size names.length)) .none).cells[id]? =
        next.cells[id]? := by
    intro id hid hchild
    exact Draft.getElem?_extend_of_not_mem (Nat.ne_of_lt hid) (by rwa [hwhole]) .none
  refine ⟨fun id hid => ?_, fun place name hname => ?_, fun place hplace => ?_⟩
  · have hchild : id ∉ wrappers draft.size names.length := by
      rw [mem_wrappers_iff]
      rintro ⟨place, _, hplace⟩
      omega
    rw [hleft id (by omega) hchild, h.kept id hid]
  · have hplace := (List.getElem?_eq_some_iff.mp hname).1
    -- A word has an even place in the block, and a wrapper an odd one.
    have hchild : draft.size + 2 * place ∉ wrappers draft.size names.length := by
      rw [mem_wrappers_iff]
      rintro ⟨other, _, hother⟩
      omega
    rw [hleft _ (by omega) hchild, h.word_eq place name hname]
  · have hchild : draft.size + 2 * place + 1 ∈ wrappers draft.size names.length :=
      (mem_wrappers_iff ..).mpr ⟨place, hplace, rfl⟩
    rw [Draft.getElem?_extend, if_neg (by omega), h.wrapper_eq place hplace, Option.map_some,
      hwhole, if_pos hchild, hsize]

/-- The block is closed by a node around all the wrappers. -/
theorem Wrapped.spelledOut_extend (hwhole : ∀ ids, (whole ids).children = ids)
    (h : Wrapped draft next around names none)
    (hsize : next.size = draft.size + 2 * names.length) :
    SpelledOut draft (next.extend (whole (wrappers draft.size names.length)) .none) names around
      whole := by
  have hnext : (next.extend (whole (wrappers draft.size names.length)) .none).size =
      draft.size + (2 * names.length + 1) := by
    rw [Draft.size_extend, hsize, Nat.add_assoc]
  have hwrapped := h.extend hwhole hsize
  refine ⟨hnext, hwrapped, ?_, fun id hstart hend => ?_⟩
  · rw [← hsize, Draft.getElem?_extend, if_pos rfl]
  · rcases hwrapped.exists_parent (Nat.le_refl _) hstart hend with
      ⟨cell, parent, hcell, hparent, hinside, hle⟩
    exact ⟨cell, parent, hcell, hparent, hinside, hnext ▸ Nat.lt_succ_of_le hle⟩

/-- A builder that wraps names and puts a node around all of them succeeds on every draft. -/
theorem exists_spelledOut (haround : ∀ id, (around id).children = [id])
    (hwhole : ∀ ids, (whole ids).children = ids) {action : Build NodeId}
    (h : Spells draft.size action (wrappedEdits around draft.size names ++
      [.add (whole (wrappers draft.size names.length)) .none])
      (draft.size + 2 * names.length)) :
    ∃ next, action draft = .ok (draft.size + 2 * names.length, next) ∧
      SpelledOut draft next names around whole := by
  have hthere := (failing_eq_nil_iff _).mp
    (failing_lookupsOf_around haround (hwhole (wrappers draft.size names.length)))
  rcases (FailsOnFirst.edit draft _).ok_of_there hthere with ⟨next, hedit, _⟩
  refine ⟨next, by rw [h draft rfl, hedit]; rfl, ?_⟩
  rw [edit_append, bind_eq_ok_iff] at hedit
  rcases hedit with ⟨middle, hloop, hlast⟩
  rcases (edit_cons_eq_ok_iff ..).mp hlast with ⟨last, hadd, hdone⟩
  rw [edit_nil, Except.ok.injEq] at hdone
  subst hdone
  rcases (edit_add_eq_ok_iff ..).mp hadd with ⟨_, rfl⟩
  refine (wrapped_of_edit haround hloop).spelledOut_extend hwhole ?_
  rw [size_of_edit _ draft middle hloop, added_wrappedEdits]

/-- Whatever the names are and whatever has been built before, a heritage clause and an array
    pattern are built without a failure. Of the nodes that are added the last is handed back, and
    it stands below nothing. Its children are the wrappers, in the order of the names. Each of
    these has one child, the identifier with the name. All other new nodes stand below new ones,
    and the old nodes are as they were. -/
theorem names_are_spelled_out (draft : Draft) (names : List String) :
    (∀ keyword, ∃ next, Build.heritageClause keyword names draft =
        .ok (draft.size + 2 * names.length, next) ∧
      SpelledOut draft next names .expressionWithTypeArguments (.heritageClause keyword)) ∧
    ∃ next, Build.arrayBindingPattern names draft =
        .ok (draft.size + 2 * names.length, next) ∧
      SpelledOut draft next names .bindingElement .arrayBindingPattern :=
  ⟨fun keyword => exists_spelledOut (fun _ => rfl) (fun _ => rfl)
      (spells_around .expressionWithTypeArguments (.heritageClause keyword) draft.size names),
    exists_spelledOut (fun _ => rfl) (fun _ => rfl)
      (spells_around .bindingElement .arrayBindingPattern draft.size names)⟩

/-- On a draft with one node, a pattern with the same name twice and one without letters. -/
theorem names_are_spelled_out_twice :
    ∃ next, Build.arrayBindingPattern ["x", "", "x"] ⟨#[⟨.identifier "x", .none, none, {}⟩]⟩ =
        .ok (7, next) ∧ next.size = 8 ∧
      next.cells[0]? = some ⟨.identifier "x", .none, none, {}⟩ ∧
      next.cells[5]? = some ⟨.identifier "x", .none, some 6, {}⟩ ∧
      next.cells[6]? = some ⟨.bindingElement 5, .none, some 7, {}⟩ ∧
      next.cells[7]? = some ⟨.arrayBindingPattern [2, 4, 6], .none, none, {}⟩ := by
  rcases (names_are_spelled_out ⟨#[⟨.identifier "x", .none, none, {}⟩]⟩ ["x", "", "x"]).2 with
    ⟨next, hbuild, hspelled⟩
  exact ⟨next, hbuild, hspelled.size_eq, hspelled.wrapped.kept 0 Nat.zero_lt_one,
    hspelled.wrapped.word_eq 2 "x" rfl, hspelled.wrapped.wrapper_eq 2 (Nat.lt_succ_self 2),
    hspelled.whole_eq⟩

end TreeQuery
