import TreeQuery.Proofs.Flags.Described
import TreeQuery.Proofs.History
import TreeQuery.Proofs.Tree.Content
import TreeQuery.Proofs.Tree.Links
import TreeQuery.Query.Accessor

/-!
# The member that a property access reads

Whether a function stands behind `e.name` is found out in five steps, each of which may fail:
the text of the name, the type of `e`, the symbol of the type, its table of members, and
the member that the table holds under the text. Two of the steps look something up, the
type under the number of `e` and the member under its name, and what is looked up is what
was put there last.

`MemberOf` says what the steps amount to in terms of these two histories. It speaks of the
object and of the text only, so types of other nodes cannot matter, the type of the
access itself among them. The answer then is one bit of the flags of the member.

## Main definitions

* `MemberOf`: The member that was added last under a name, of the type that was set last.
* `Tabulated`: The tables of members were made by additions.
* `AsksFor`: The two questions, and the bits that they ask for.

## Theorems

* `MemberOf.unique`: There is one such member at most.
* `accessedMember?_of_access`: The five steps.
* `bind_find?_eq_some_iff`: The five steps, told by the histories.
* `AsksFor.answer_of_member`: The answer is a bit of the member.
* `asked_of_access`, `asked_congr`, `asked_of_other`: The answers for an access, also from
  another checker, and for another node.
* `accessors_are_of_member`: The answers in a file that a recipe made.
-/

namespace TreeQuery

/-- The type that was set last for the object has a symbol with members, and the member was added
    to them last under the name. -/
def MemberOf (types : List (NodeId × Ty)) (object : NodeId) (name : String) (member : Symbol) :
    Prop :=
  ∃ type symbol added, OrderedMap.LastUnder types object type ∧ type.symbol = some symbol ∧
    symbol.members = some (.ofList added) ∧ OrderedMap.LastUnder added name member

/-- Where a type has a table of members, the table was made by adding one after the other. -/
def Tabulated (types : List (NodeId × Ty)) : Prop :=
  ∀ entry ∈ types, ∀ symbol members, entry.2.symbol = some symbol →
    symbol.members = some members → ∃ added, members = .ofList added

/-- The two questions about a property access, each with the place of the bit that it asks for. -/
inductive AsksFor : (Checker → Node → Except OutOfFile Bool) → Nat → Prop
  | getter : AsksFor Checker.hasGetter 15
  | setter : AsksFor Checker.hasSetter 16

-- There is one such member at most.
theorem MemberOf.unique {types : List (NodeId × Ty)} {object : NodeId} {name : String}
    {member other : Symbol} (h : MemberOf types object name member)
    (h' : MemberOf types object name other) : member = other := by
  rcases h with ⟨type, symbol, added, htype, hsymbol, hmembers, hlast⟩
  rcases h' with ⟨second, owner, further, hsecond, howner, htable, hother⟩
  rw [htype.unique hsecond, howner, Option.some.injEq] at hsymbol
  rw [← hsymbol, htable, Option.some.injEq] at hmembers
  rw [← OrderedMap.find?_ofList_eq_some_iff] at hlast hother
  exact Option.some.inj (hlast.symm.trans (hmembers ▸ hother))

theorem accessedMember?_of_access (checker : Checker) {node target named : Node}
    {object name : NodeId} (hform : node.form = .propertyAccessExpression object name)
    (hobject : node.file.node object = .ok target) (hname : node.file.node name = .ok named) :
    checker.accessedMember? node = .ok (named.text?.bind fun text =>
      (checker.typeAt target).bind fun type => type.symbol.bind fun symbol =>
        symbol.members.bind fun members => members.find? text) := by
  simp only [Checker.accessedMember?, hform, hname, bind, Except.bind]
  cases named.text? with
  | none => rfl
  | some text =>
      simp only [hobject]
      rfl

-- What looking up the type and the member gives is what the histories have last.
theorem bind_find?_eq_some_iff {types : List (NodeId × Ty)} (h : Tabulated types)
    (object : NodeId) (text : String) (member : Symbol) :
    (((OrderedMap.ofList types).find? object).bind fun type => type.symbol.bind fun symbol =>
      symbol.members.bind fun members => members.find? text) = some member ↔
        MemberOf types object text member := by
  simp only [Option.bind_eq_some_iff, OrderedMap.find?_ofList_eq_some_iff]
  constructor
  · rintro ⟨type, htype, symbol, hsymbol, members, hmembers, hmember⟩
    have hset : (object, type) ∈ types := by
      rcases htype with ⟨_, _, rfl, _⟩
      exact List.mem_append_right _ List.mem_cons_self
    rcases h _ hset symbol members hsymbol hmembers with ⟨added, rfl⟩
    exact ⟨type, symbol, added, htype, hsymbol, hmembers,
      (OrderedMap.find?_ofList_eq_some_iff ..).mp hmember⟩
  · rintro ⟨type, symbol, added, htype, hsymbol, hmembers, hmember⟩
    exact ⟨type, htype, symbol, hsymbol, _, hmembers,
      (OrderedMap.find?_ofList_eq_some_iff ..).mpr hmember⟩

-- Each question is about flags with a single bit.
theorem AsksFor.exists_hasOnly {ask : Checker → Node → Except OutOfFile Bool} {place : Nat}
    (h : AsksFor ask place) : ∃ flags : SymbolFlags, Bits.HasOnly flags.bits.toBitVec place ∧
      ∀ checker node, ask checker node = checker.accessesMemberWith flags node := by
  cases h with
  | getter =>
      have hbits : SymbolFlags.getAccessor.bits.toBitVec = BitVec.twoPow 32 15 := by decide
      exact ⟨SymbolFlags.getAccessor, hbits ▸ Bits.hasOnly_twoPow (by decide), fun _ _ => rfl⟩
  | setter =>
      have hbits : SymbolFlags.setAccessor.bits.toBitVec = BitVec.twoPow 32 16 := by decide
      exact ⟨SymbolFlags.setAccessor, hbits ▸ Bits.hasOnly_twoPow (by decide), fun _ _ => rfl⟩

/-- The answer is yes if there is a member and it has the bit. -/
theorem AsksFor.answer_of_member {ask : Checker → Node → Except OutOfFile Bool} {place : Nat}
    (h : AsksFor ask place) {checker : Checker} {node : Node} {found : Option Symbol}
    (hfound : checker.accessedMember? node = .ok found) :
    ∃ answer, ask checker node = .ok answer ∧
      (answer = true ↔ ∃ member, found = some member ∧
        Bits.HasBit member.flags.bits.toBitVec place) := by
  rcases h.exists_hasOnly with ⟨flags, honly, hask⟩
  refine ⟨found.any fun member => member.flags.includes flags, ?_, ?_⟩
  · rw [hask, Checker.accessesMemberWith, hfound]
    rfl
  · rw [Option.any_eq_true]
    simp only [Flags.includes_iff, honly.within_iff_meets, honly.meets_iff_hasBit]

theorem asked_of_access {ask : Checker → Node → Except OutOfFile Bool} {place : Nat}
    (h : AsksFor ask place) {types : List (NodeId × Ty)} (htypes : Tabulated types)
    {node target named : Node} {object name : NodeId}
    (hform : node.form = .propertyAccessExpression object name)
    (hobject : node.file.node object = .ok target) (hname : node.file.node name = .ok named) :
    ∃ answer, ask (TypeTable.ofList types).checker node = .ok answer ∧
      (answer = true ↔ ∃ text member, named.text? = some text ∧
        MemberOf types object text member ∧ Bits.HasBit member.flags.bits.toBitVec place) := by
  have hid : target.id = object := ((node_eq_ok_iff ..).mp hobject).2
  rcases h.answer_of_member (accessedMember?_of_access (TypeTable.ofList types).checker hform
    hobject hname) with ⟨answer, hanswer, hiff⟩
  refine ⟨answer, hanswer, hiff.trans ?_⟩
  simp only [TypeTable.checker, TypeTable.ofList, hid, Option.bind_eq_some_iff (x := named.text?),
    bind_find?_eq_some_iff htypes]
  constructor
  · rintro ⟨member, ⟨text, htext, hmember⟩, hbit⟩
    exact ⟨text, member, htext, hmember, hbit⟩
  · rintro ⟨text, member, htext, hmember, hbit⟩
    exact ⟨member, ⟨text, htext, hmember⟩, hbit⟩

-- Two histories that agree about the object give an access the same answer.
theorem asked_congr {ask : Checker → Node → Except OutOfFile Bool} {place : Nat}
    (h : AsksFor ask place) {types others : List (NodeId × Ty)} {node target named : Node}
    {object name : NodeId} (hform : node.form = .propertyAccessExpression object name)
    (hobject : node.file.node object = .ok target) (hname : node.file.node name = .ok named)
    (hsame : ∀ type, OrderedMap.LastUnder others object type ↔
      OrderedMap.LastUnder types object type) :
    ask (TypeTable.ofList others).checker node = ask (TypeTable.ofList types).checker node := by
  have htype : (TypeTable.ofList others).checker.typeAt target =
      (TypeTable.ofList types).checker.typeAt target := by
    refine Option.ext fun type => ?_
    rw [← ((node_eq_ok_iff ..).mp hobject).2] at hsame
    exact (OrderedMap.find?_ofList_eq_some_iff ..).trans <| (hsame type).trans
      (OrderedMap.find?_ofList_eq_some_iff ..).symm
  rcases h.exists_hasOnly with ⟨flags, _, hask⟩
  simp only [hask, Checker.accessesMemberWith, accessedMember?_of_access _ hform hobject hname,
    htype]

theorem asked_of_other {ask : Checker → Node → Except OutOfFile Bool} {place : Nat}
    (h : AsksFor ask place) (checker : Checker) {node : Node}
    (hkind : node.kind ≠ .propertyAccessExpression) : ask checker node = .ok false := by
  have hnone : checker.accessedMember? node = .ok none := by
    rw [Checker.accessedMember?]
    split
    · rename_i object name hform
      rw [Node.kind, hform] at hkind
      exact absurd rfl hkind
    · rfl
  rcases h.exists_hasOnly with ⟨flags, _, hask⟩
  rw [hask, Checker.accessesMemberWith, hnone]
  rfl

/-- A property access that a recipe has made by some point stays what it is, and whether a function
    stands behind it is a matter of one member: the one that was added last, under the text of the
    name, to the members of the type that was set last for the object. The answer to either question
    is whether that member has the bit that is asked for. It is no if there is no text or no such
    member, and for every node of another kind. Types that were set for other nodes, or earlier for
    the object, make no difference. -/
theorem accessors_are_of_member (steps later : List Step) (reached draft : Draft)
    (fileName : String) (statements : List NodeId) (file : SourceFile)
    (types : List (NodeId × Ty)) (access object name : NodeId) (cell named : Cell)
    (hreached : (({} : Draft).run steps).outcome = .ok reached)
    (hlater : (reached.run later).outcome = .ok draft)
    (hfinish : draft.finish fileName statements = .ok file) (htypes : Tabulated types)
    (hcell : reached.cells[access]? = some cell)
    (hform : cell.form = .propertyAccessExpression object name)
    (hnamed : reached.cells[name]? = some named) :
    ∃ node, file.node access = .ok node ∧ node.form = .propertyAccessExpression object name ∧
      ∀ ask place, AsksFor ask place →
        (∃ answer, ask (TypeTable.ofList types).checker node = .ok answer ∧
          (answer = true ↔ ∃ text member, named.form.text? = some text ∧
            MemberOf types object text member ∧
              Bits.HasBit member.flags.bits.toBitVec place)) ∧
        (∀ others, (∀ type, OrderedMap.LastUnder others object type ↔
            OrderedMap.LastUnder types object type) →
          ask (TypeTable.ofList others).checker node =
            ask (TypeTable.ofList types).checker node) ∧
        ∀ checker other, other.kind ≠ .propertyAccessExpression →
          ask checker other = .ok false := by
  have hkeeps := keeps_finish steps later reached draft fileName statements file hreached hlater
    hfinish
  have hlinked := linked_run steps {} reached hreached linked_empty
  rcases hkeeps.exists_node hcell with ⟨node, hnode, hsame⟩
  rw [hform] at hsame
  rcases hkeeps.exists_node hnamed with ⟨second, hsecond, htext⟩
  have hobject : Names reached.cells access object :=
    ⟨cell, hcell, by rw [hform]; exact List.mem_cons_self⟩
  have hin := Nat.lt_trans (hlinked.child_lt _ _ hobject) (lt_size_of_names hobject)
  rcases hkeeps.exists_node (Array.getElem?_eq_getElem hin) with ⟨target, htarget, _⟩
  rw [← ((node_eq_ok_iff ..).mp hnode).1] at hsecond htarget
  refine ⟨node, hnode, hsame, fun ask place hask => ⟨?_, fun others hothers => ?_,
    fun checker other hother => asked_of_other hask checker hother⟩⟩
  · rw [← htext]
    exact asked_of_access hask htypes hsame htarget hsecond
  · exact asked_congr hask hsame htarget hsecond hothers

/-- The access `e.g` with three types set, two of them for `e`. The later of these two has `g` added
    twice, as a setter and then as a getter: reading calls a function and writing does not. -/
theorem accessors_are_of_member_replaced :
    ∃ (getter setter owner : Symbol) (draft : Draft) (file : SourceFile) (node : Node),
      getter.name = "g" ∧ setter.name = "g" ∧
      (({} : Draft).run [.identifier "e", .propertyAccess 0 "g", .expressionStatement 2]).outcome =
        .ok draft ∧
      draft.finish "a.ts" [3] = .ok file ∧ file.node 2 = .ok node ∧
      (TypeTable.ofList [(0, Ty.object (owner.withMembers [setter])),
        (0, Ty.object (owner.withMembers [setter, getter])),
        (2, Ty.object (owner.withMembers [setter]))]).checker.hasGetter node = .ok true ∧
      (TypeTable.ofList [(0, Ty.object (owner.withMembers [setter])),
        (0, Ty.object (owner.withMembers [setter, getter])),
        (2, Ty.object (owner.withMembers [setter]))]).checker.hasSetter node = .ok false := by
  have hreached : (({} : Draft).run [.identifier "e", .propertyAccess 0 "g"]).outcome =
      .ok ⟨#[⟨.identifier "e", .none, some 2, {}⟩, ⟨.identifier "g", .none, some 2, {}⟩,
        ⟨.propertyAccessExpression 0 1, .none, none, {}⟩]⟩ := rfl
  let getter : Symbol := ⟨"g", SymbolFlags.getAccessor, [], none⟩
  let setter : Symbol := ⟨"g", SymbolFlags.setAccessor, [], none⟩
  let owner : Symbol := ⟨"C", ⟨0⟩, [], none⟩
  let types : List (NodeId × Ty) := [(0, Ty.object (owner.withMembers [setter])),
    (0, Ty.object (owner.withMembers [setter, getter])),
    (2, Ty.object (owner.withMembers [setter]))]
  have htypes : Tabulated types := by
    have htable : ∀ members symbol table,
        (Ty.object (owner.withMembers members)).symbol = some symbol →
          symbol.members = some table → ∃ added, table = .ofList added := by
      rintro members symbol table ⟨⟩ ⟨⟩
      exact ⟨_, rfl⟩
    intro entry hentry
    simp only [types, List.mem_cons, List.not_mem_nil, or_false] at hentry
    rcases hentry with rfl | rfl | rfl <;> exact htable _
  have hmember : MemberOf types 0 "g" getter :=
    ⟨_, _, [("g", setter), ("g", getter)], ⟨types.take 1, types.drop 2, rfl, by decide⟩, rfl, rfl,
      [("g", setter)], [], rfl, by simp⟩
  rcases accessors_are_of_member _ [.expressionStatement 2] _ _ "a.ts" [3] _ types 2 0 1 _ _
    hreached rfl rfl htypes rfl rfl rfl with ⟨node, hnode, _, hasks⟩
  rcases (hasks _ _ .getter).1 with ⟨reads, hreads, hyes⟩
  rcases (hasks _ _ .setter).1 with ⟨writes, hwrites, hno⟩
  have hset : getter.flags.bits.toBitVec.getLsbD 15 = true := by decide
  have hclear : getter.flags.bits.toBitVec.getLsbD 16 = false := by decide
  have hreading : reads = true := hyes.mpr ⟨"g", getter, rfl, hmember, hset⟩
  have hwriting : writes = false := by
    rw [← Bool.not_eq_true, hno]
    rintro ⟨text, member, htext, hother, hbit⟩
    cases htext
    rw [hother.unique hmember, Bits.HasBit, hclear] at hbit
    exact Bool.false_ne_true hbit
  exact ⟨getter, setter, owner, _, _, node, rfl, rfl, rfl, rfl, hnode, hreading ▸ hreads,
    hwriting ▸ hwrites⟩

end TreeQuery
