import TreeQuery.Proofs.Query.Enclosing
import TreeQuery.Proofs.Query.Location
import TreeQuery.Proofs.Tree.Isomorphic
import TreeQuery.Query.Accessor
import TreeQuery.Query.Destructuring
import TreeQuery.Query.Statement

/-!
# Queries about files with the same nodes

A query looks at the content of nodes and walks from one to the next. None of them looks
at a number except to follow it or to compare it with another one, so a query about a
node and the same query about its counterpart in an isomorphic file come to the same
answer. Where the answer is a node, it is the counterpart.

Queries about types ask a checker as well, and the two checkers must know the same types
of corresponding nodes. They fail alike, too: the error over a wrong directive bears the
kind, the range and the file name of a node, and no number. The queries about functions
that return several values even leave the same messages. The one about the base of a
class need not, as its message shows the number of the class.

## Main definitions

* `Checker.Corresponds`: Two checkers know the same types of corresponding nodes.
* `Alike`: A node and its counterpart answer alike.

## Theorems

* `Counterpart.isDestructured`, `Counterpart.isDiscarded`, `Counterpart.isGlobal`,
  `Counterpart.baseExpression`, `Isomorphic.isModule`: Queries about the tree.
* `Counterpart.accessedMember?`: The member that a property access names.
* `Counterpart.ofReading_eq`, `Counterpart.directivesAt_eq`: What is read at a node,
  errors included.
* `Counterpart.isTupleReturnCall_eq`, `Counterpart.isInTupleReturn_eq`,
  `Counterpart.answer_baseType_eq`: Queries about directives.
* `Counterpart.alike`: All of it together.
-/

namespace TreeQuery

variable {σ : Equiv.Perm NodeId} {file other : SourceFile} {node image : Node}

-- Searching the clauses of a class finds corresponding numbers.
theorem findSome?_extended {clauses others : List Node} (hsame : Isomorphic σ file other)
    (hclauses : List.Forall₂ (Counterpart σ file other) clauses others) :
    (others.findSome? fun clause => clause.form.extended?) =
      (clauses.findSome? fun clause => clause.form.extended?).map (Option.map σ) := by
  induction hclauses with
  | nil => rfl
  | @cons first found rest others hfirst _ ih =>
      rw [List.findSome?_cons, List.findSome?_cons, hfirst.form_eq hsame, Form.extended?_rename]
      cases first.form.extended? with
      | none => exact ih
      | some id => rfl

theorem exists_counterpart {nodes images : List Node}
    (h : List.Forall₂ (Counterpart σ file other) nodes images) :
    ∀ node ∈ nodes, ∃ image, Counterpart σ file other node image := by
  induction h with
  | nil => exact fun _ hnode => absurd hnode List.not_mem_nil
  | cons hfirst _ ih => exact List.forall_mem_cons.mpr ⟨⟨_, hfirst⟩, ih⟩

namespace Counterpart

variable (h : Counterpart σ file other node image) (hsame : Isomorphic σ file other)
  (hlinked : Linked file.cells)

include h hsame

theorem isExported_eq : image.isExported = node.isExported := by
  rw [Node.isExported, Node.isExported, Node.hasModifier, Node.hasModifier, h.modifiers_eq hsame,
    h.form_eq hsame]
  cases node.form <;> rfl

-- An error over directives bears nothing that depends on numbers.
theorem ofReading_eq (reading : Traced (Except DirectiveError α)) :
    Query.ofReading image reading = Query.ofReading node reading := by
  have hplaced : LocatedError.placedAt image = LocatedError.placedAt node := by
    funext cause
    rw [LocatedError.placedAt, LocatedError.placedAt, h.kind_eq hsame, h.range_eq hsame,
      h.image_file_eq, h.file_eq, hsame.name_eq]
  rw [Query.ofReading, Query.ofReading, hplaced]

include hlinked

theorem isDestructured : Agree Eq node.isDestructured image.isDestructured := by
  rw [Node.isDestructured, Node.isDestructured]
  refine (h.parent hsame hlinked).bind fun _ _ hparent => ?_
  cases hparent with
  | none => exact Agree.pure rfl
  | @some parent above hparent =>
      -- The slot that is looked at, if there is one, is a slot of the parent.
      have hslot : ∀ id ∈ parent.form.children, ∀ kind, Agree Eq
          (do return (← parent.file.node id).is kind)
          (do return (← above.file.node (σ id)).is kind) := by
        intro id hid kind
        rw [hparent.file_eq, hparent.image_file_eq]
        refine (agree_node hsame (hparent.child_lt hlinked id hid)).bind fun _ _ hmatch => ?_
        exact Agree.pure (hmatch.is_eq hsame kind).symm
      simp only [hparent.form_eq hsame]
      cases hform : parent.form with
      | variableDeclaration name value =>
          exact hslot name (by rw [hform]; exact List.mem_cons_self) _
      | binaryExpression left operator right =>
          cases operator with
          | equalsToken => exact hslot left (by rw [hform]; exact List.mem_cons_self) _
          | _ => exact Agree.pure rfl
      | _ => exact Agree.pure rfl

theorem isDiscarded : Agree Eq node.isDiscarded image.isDiscarded := by
  rw [Node.isDiscarded, Node.isDiscarded]
  refine (h.parent hsame hlinked).bind fun _ _ hparent => ?_
  cases hparent with
  | none => exact Agree.pure rfl
  | @some parent above hparent =>
      have hslot : ∀ slot : Option NodeId,
          (slot.map σ == some image.id) = (slot == some node.id) := by
        intro slot
        rw [Bool.eq_iff_iff, beq_iff_eq, beq_iff_eq, h.id_eq, ← Option.map_some,
          (Option.map_injective σ.injective).eq_iff]
      simp only [hparent.form_eq hsame]
      cases parent.form with
      | forStatement start condition increment body =>
          exact Agree.pure (by simp only [hslot])
      | _ => exact Agree.pure rfl

theorem isGlobal : Agree Eq node.isGlobal image.isGlobal := by
  refine (h.firstAbove hsame hlinked fun _ _ hmatch => hmatch.is_eq hsame .block).map
    fun _ _ hfound => ?_
  cases hfound <;> rfl

theorem baseExpression :
    Agree (Option.Rel (Counterpart σ file other)) node.baseExpression image.baseExpression := by
  rw [Node.baseExpression, Node.baseExpression]
  refine (h.heritageClauses hsame hlinked).bind fun clauses others hclauses => ?_
  rw [findSome?_extended hsame hclauses]
  cases hfind : clauses.findSome? fun clause => clause.form.extended? with
  | none => exact Agree.pure Option.Rel.none
  | some found =>
      cases found with
      | none => exact Agree.pure Option.Rel.none
      | some id =>
          -- The number stands in a clause, and so belongs to the file.
          rcases List.exists_of_findSome?_eq_some hfind with ⟨clause, hclause, hextended⟩
          rcases exists_counterpart hclauses clause hclause with ⟨found, hmatch⟩
          have hid := hmatch.child_lt hlinked id (mem_children_of_extended? hextended)
          simp only [Option.map_some, h.file_eq, h.image_file_eq]
          exact (agree_node hsame hid).map fun _ _ => Option.Rel.some

end Counterpart

theorem Isomorphic.isModule (hsame : Isomorphic σ file other) (hlinked : Linked file.cells)
    (hroot : file.root < file.size) :
    Agree Eq file.isModule other.isModule := by
  rw [SourceFile.isModule, SourceFile.isModule, SourceFile.statements, SourceFile.statements,
    SourceFile.rootNode, SourceFile.rootNode, hsame.root_eq]
  refine ((agree_node hsame hroot).bind fun _ _ hmatch => hmatch.children hsame hlinked).map
    fun nodes images hall => ?_
  induction hall with
  | nil => rfl
  | cons hfirst _ ih => rw [List.any_cons, List.any_cons, hfirst.isExported_eq hsame, ih]

/-- Two checkers know the same types of corresponding nodes. -/
def Checker.Corresponds (σ : Equiv.Perm NodeId) (file other : SourceFile) (left right : Checker) :
    Prop :=
  ∀ node image, Counterpart σ file other node image → right.typeAt image = left.typeAt node

namespace Counterpart

variable {left right : Checker} (h : Counterpart σ file other node image)
  (hsame : Isomorphic σ file other) (hlinked : Linked file.cells)
  (hcheckers : Checker.Corresponds σ file other left right)

include h hsame hcheckers

theorem directivesAt_eq : right.directivesAt image = left.directivesAt node := by
  rw [Checker.directivesAt, Checker.directivesAt, hcheckers node image h]
  cases left.typeAt node with
  | none => rfl
  | some type => simp only [h.ofReading_eq hsame]

theorem hasDirectiveAt_eq (kind : Directive.Kind) :
    right.hasDirectiveAt image kind = left.hasDirectiveAt node kind := by
  rw [Checker.hasDirectiveAt, Checker.hasDirectiveAt, h.directivesAt_eq hsame hcheckers]

include hlinked

theorem accessedMember? :
    Agree Eq (left.accessedMember? node) (right.accessedMember? image) := by
  have hslot := h.child_lt hlinked
  simp only [Checker.accessedMember?, h.form_eq hsame, h.file_eq, h.image_file_eq]
  cases hform : node.form with
  | propertyAccessExpression object name =>
      simp only [hform, Form.children, List.forall_mem_cons] at hslot
      refine (agree_node hsame hslot.2.1).bind fun first second hname => ?_
      have htext : second.text? = first.text? := by
        rw [Node.text?, hname.form_eq hsame, Form.text?_rename]
        rfl
      rw [htext]
      cases first.text? with
      | none => exact Agree.pure rfl
      | some text =>
          refine (agree_node hsame hslot.1).bind fun _ _ hobject => ?_
          exact Agree.pure (by rw [hcheckers _ _ hobject])
  | _ => exact Agree.pure rfl

theorem accessesMemberWith (flags : SymbolFlags) :
    Agree Eq (left.accessesMemberWith flags node) (right.accessesMemberWith flags image) :=
  (h.accessedMember? hsame hlinked hcheckers).map fun _ _ hmember => by rw [hmember]

theorem isTupleReturnCall_eq :
    right.isTupleReturnCall image = left.isTupleReturnCall node := by
  have hslot := h.child_lt hlinked
  simp only [Checker.isTupleReturnCall, h.form_eq hsame, h.file_eq, h.image_file_eq]
  cases hform : node.form with
  | callExpression callee arguments =>
      rw [hform] at hslot
      rcases agree_node hsame (hslot callee List.mem_cons_self) with
        ⟨found, answer, hfound, hanswer, hmatch⟩
      simp only [Form.rename, Query.bind_walk _ hfound, Query.bind_walk _ hanswer]
      exact hmatch.hasDirectiveAt_eq hsame hcheckers .tupleReturn
  | _ => rfl

theorem isInTupleReturn_eq : right.isInTupleReturn image = left.isInTupleReturn node := by
  rcases h.firstAbove hsame hlinked fun _ _ hmatch => hmatch.is_eq hsame .functionDeclaration with
    ⟨found, answer, hfound, hanswer, hrelated⟩
  rw [isInTupleReturn_of_firstAbove right hanswer, isInTupleReturn_of_firstAbove left hfound]
  cases hrelated with
  | none => rfl
  | some hmatch => exact hmatch.hasDirectiveAt_eq hsame hcheckers .tupleReturn

-- Only the message over a base that is not inherited from shows numbers.
theorem answer_baseType_eq :
    (right.baseType image).answer = (left.baseType node).answer := by
  rcases h.baseExpression hsame hlinked with ⟨found, answer, hfound, hanswer, hrelated⟩
  cases hrelated with
  | none => rw [left.baseType_of_no_type hfound rfl, right.baseType_of_no_type hanswer rfl]
  | @some base target hmatch =>
      have htypes := hcheckers base target hmatch
      cases htype : left.typeAt base with
      | none =>
          rw [htype] at htypes
          rw [left.baseType_of_no_type hfound htype, right.baseType_of_no_type hanswer htypes]
      | some type =>
          rw [htype] at htypes
          rw [left.answer_baseType hfound htype, right.answer_baseType hanswer htypes,
            hmatch.directivesAt_eq hsame hcheckers]

end Counterpart

/-- A node and its counterpart have the same content, walks from them go alongside each other, and
    queries about them answer alike. -/
structure Alike (σ : Equiv.Perm NodeId) (file other : SourceFile) (left right : Checker)
    (node image : Node) : Prop where
  form_eq : image.form = node.form.rename σ
  modifiers_eq : image.cell.modifiers = node.cell.modifiers
  range_eq : image.range = node.range
  parent : Agree (Option.Rel (Counterpart σ file other)) node.parent image.parent
  children : Agree (List.Forall₂ (Counterpart σ file other)) node.children image.children
  ancestors : Agree (List.Forall₂ (Counterpart σ file other)) node.ancestors image.ancestors
  isDestructured : Agree Eq node.isDestructured image.isDestructured
  isDiscarded : Agree Eq node.isDiscarded image.isDiscarded
  isGlobal : Agree Eq node.isGlobal image.isGlobal
  hasGetter : Agree Eq (left.hasGetter node) (right.hasGetter image)
  hasSetter : Agree Eq (left.hasSetter node) (right.hasSetter image)
  isTupleReturnCall_eq : right.isTupleReturnCall image = left.isTupleReturnCall node
  isInTupleReturn_eq : right.isInTupleReturn image = left.isInTupleReturn node
  baseExpression : Agree (Option.Rel (Counterpart σ file other)) node.baseExpression
    image.baseExpression
  answer_baseType_eq : (right.baseType image).answer = (left.baseType node).answer

/-- Counterparts in isomorphic files are alike. -/
theorem Counterpart.alike {left right : Checker} (h : Counterpart σ file other node image)
    (hsame : Isomorphic σ file other) (hlinked : Linked file.cells)
    (hcheckers : Checker.Corresponds σ file other left right) :
    Alike σ file other left right node image where
  form_eq := h.form_eq hsame
  modifiers_eq := h.modifiers_eq hsame
  range_eq := h.range_eq hsame
  parent := h.parent hsame hlinked
  children := h.children hsame hlinked
  ancestors := h.ancestors hsame hlinked
  isDestructured := h.isDestructured hsame hlinked
  isDiscarded := h.isDiscarded hsame hlinked
  isGlobal := h.isGlobal hsame hlinked
  hasGetter := h.accessesMemberWith hsame hlinked hcheckers _
  hasSetter := h.accessesMemberWith hsame hlinked hcheckers _
  isTupleReturnCall_eq := h.isTupleReturnCall_eq hsame hlinked hcheckers
  isInTupleReturn_eq := h.isInTupleReturn_eq hsame hlinked hcheckers
  baseExpression := h.baseExpression hsame hlinked
  answer_baseType_eq := h.answer_baseType_eq hsame hlinked hcheckers

end TreeQuery
