import Mathlib.Logic.ExistsUnique
import Mathlib.Logic.Relation
import TreeQuery.Proofs.Tree.Ancestors
import TreeQuery.Proofs.Tree.UsedOnce

/-!
# Ways down

A file can be walked in two directions. The way up is a single list of nodes, the way
down branches at every node. They are stored apart, the one in the links to the parents
and the other in the lists of children.

If every node is named by one other node at most, the two directions are inverse: the
parent of a node is the node that has it as a child, and there is no second one. Then
whatever can be reached by going down from a node has that node on its way up. In
particular the way up from a node ends in the only topmost node above it, so the topmost
nodes divide the file among them. One of them is the root, and the others are fragments
that belong to no program.

## Main definitions

* `HasChild`: A node has another one as a child.
* `Reaches`, `Contains`: A node is reached by going down, any number of times or at
  least once.
* `Inverse`: The two directions of a file are inverse.

## Theorems

* `hasChild_iff`: Having a child, by the numbers in the slots.
* `inverse_of_namedOnce`: The directions are inverse if every node is named once.
* `contains_iff_of_parent`, `reaches_iff_of_parent`: One step on the way down.
* `LeadsUp.mem_iff_contains`: The way up goes through what is around a node.
* `LeadsUp.getLast?_eq_some_iff`: It ends in the topmost node that reaches the node.
* `exists_root`: A file that a recipe made has a root, which is topmost.
* `forest_of_builtOnce`: A file in which no node is used twice is a forest.
-/

namespace TreeQuery

/-- The second node is among the children of the first. -/
def HasChild (parent child : Node) : Prop :=
  ∃ nodes, parent.children = .ok nodes ∧ child ∈ nodes

/-- The second node is reached from the first by going down any number of times. -/
def Reaches : Node → Node → Prop :=
  Relation.ReflTransGen HasChild

/-- The second node is reached from the first by going down at least once. -/
def Contains : Node → Node → Prop :=
  Relation.TransGen HasChild

/-- Going down from a node arrives at the nodes from which going up arrives at it. -/
def Inverse (file : SourceFile) : Prop :=
  ∀ parent child : Node, child.file = file →
    (HasChild parent child ↔ child.parent = .ok (some parent))

-- A place is known by its file and its number.
theorem eq_of_place {left right : Node} (hfile : left.file = right.file)
    (hid : left.id = right.id) : left = right := by
  have hleft := (node_eq_ok_iff right.file right.id left).mpr ⟨hfile, hid⟩
  have hright := (node_eq_ok_iff right.file right.id right).mpr ⟨rfl, rfl⟩
  rw [hleft, Except.ok.injEq] at hright
  exact hright

theorem Linked.exists_children {node : Node} (h : Linked node.file.cells) :
    ∃ nodes, node.children = .ok nodes := by
  exact exists_nodes node.file node.form.children fun id hid =>
    Nat.lt_trans (h.lt_id hid) node.inFile

theorem mem_children_iff {parent : Node} {nodes : List Node} (h : parent.children = .ok nodes)
    (child : Node) :
    child ∈ nodes ↔ child.file = parent.file ∧ child.id ∈ parent.form.children := by
  rcases (children_eq_ok_iff ..).mp h with ⟨hfiles, hids⟩
  rw [← hids]
  constructor
  · intro hchild
    exact ⟨hfiles child hchild, List.mem_map_of_mem hchild⟩
  · intro hplace
    rcases hplace with ⟨hfile, hid⟩
    rcases List.mem_map.mp hid with ⟨found, hfound, hsame⟩
    have heq : found = child := eq_of_place ((hfiles found hfound).trans hfile.symm) hsame
    rwa [← heq]

theorem file_of_hasChild {parent child : Node} (h : HasChild parent child) :
    child.file = parent.file := by
  rcases h with ⟨nodes, hnodes, hchild⟩
  exact ((mem_children_iff hnodes child).mp hchild).1

-- A node has a child exactly if it names it.
theorem hasChild_iff {parent : Node} (hlinked : Linked parent.file.cells) (child : Node) :
    HasChild parent child ↔
      child.file = parent.file ∧ Names parent.file.cells parent.id child.id := by
  have hnames : Names parent.file.cells parent.id child.id ↔
      child.id ∈ parent.form.children := by
    rw [Names, getElem?_id]
    simp only [Option.some.injEq, exists_eq_left']
    rfl
  rw [hnames]
  constructor
  · intro hchild
    rcases hchild with ⟨nodes, hnodes, hmem⟩
    exact (mem_children_iff hnodes child).mp hmem
  · intro hplace
    rcases hlinked.exists_children with ⟨nodes, hnodes⟩
    exact ⟨nodes, hnodes, (mem_children_iff hnodes child).mpr hplace⟩

-- Who is named by one node only has it for its parent.
theorem inverse_of_namedOnce {file : SourceFile} (hlinked : Linked file.cells)
    (honce : NamedOnce file.cells) : Inverse file := by
  rintro parent child rfl
  rw [parent_eq_some_iff, honce.parent_eq_some_iff hlinked (getElem?_id child)]
  constructor
  · intro hchild
    have hfile := file_of_hasChild hchild
    rw [hfile] at hlinked
    rw [hfile]
    exact ⟨((hasChild_iff hlinked child).mp hchild).2, rfl⟩
  · intro hnames
    rcases hnames with ⟨hnames, hfile⟩
    rw [← hfile] at hlinked hnames
    exact (hasChild_iff hlinked child).mpr ⟨hfile.symm, hnames⟩

theorem id_lt_of_hasChild {parent child : Node} (hlinked : Linked parent.file.cells)
    (h : HasChild parent child) : child.id < parent.id :=
  hlinked.child_lt parent.id child.id ((hasChild_iff hlinked child).mp h).2

theorem reaches_iff (outer inner : Node) :
    Reaches outer inner ↔ inner = outer ∨ Contains outer inner :=
  Relation.reflTransGen_iff_eq_or_transGen

-- What is contained is in the same file, and comes before.
theorem place_of_contains {outer inner : Node} (hlinked : Linked outer.file.cells)
    (h : Contains outer inner) : inner.file = outer.file ∧ inner.id < outer.id := by
  induction h with
  | single hchild => exact ⟨file_of_hasChild hchild, id_lt_of_hasChild hlinked hchild⟩
  | tail _ hchild ih =>
      rcases ih with ⟨hfile, hlt⟩
      rw [← hfile] at hlinked
      exact ⟨(file_of_hasChild hchild).trans hfile,
        Nat.lt_trans (id_lt_of_hasChild hlinked hchild) hlt⟩

-- A topmost node is contained in no other.
theorem not_contains_of_top {node : Node} (hinverse : Inverse node.file)
    (hparent : node.parent = .ok none) (outer : Node) : ¬ Contains outer node := by
  intro hcontains
  rcases Relation.TransGen.tail'_iff.mp hcontains with ⟨last, _, hchild⟩
  rw [hinverse last node rfl, hparent] at hchild
  exact absurd hchild (by simp only [Except.ok.injEq, reduceCtorEq, not_false_eq_true])

-- A node with a parent is reached through its parent, and in no other way.
theorem contains_iff_of_parent {node above : Node} (hinverse : Inverse node.file)
    (hparent : node.parent = .ok (some above)) (outer : Node) :
    Contains outer node ↔ outer = above ∨ Contains outer above := by
  have hchild : ∀ last, HasChild last node ↔ last = above := by
    intro last
    rw [hinverse last node rfl, hparent, Except.ok.injEq, Option.some.injEq, eq_comm]
  rw [Contains, Relation.TransGen.tail'_iff]
  simp only [hchild, exists_eq_right]
  rw [Relation.reflTransGen_iff_eq_or_transGen, eq_comm]

/-- The way up from a node goes through the nodes that contain it. -/
theorem LeadsUp.mem_iff_contains {node : Node} {nodes : List Node} (h : LeadsUp node nodes)
    (hinverse : Inverse node.file) (outer : Node) : outer ∈ nodes ↔ Contains outer node := by
  induction h with
  | top hparent =>
      exact ⟨fun hmem => absurd hmem List.not_mem_nil,
        fun hcontains => absurd hcontains (not_contains_of_top hinverse hparent outer)⟩
  | @step node above rest hparent _ ih =>
      have hfile := ((parent_eq_some_iff ..).mp hparent).2
      rw [contains_iff_of_parent hinverse hparent, List.mem_cons, ih (hfile ▸ hinverse)]

/-- The way up from a node ends in the topmost node that reaches it. -/
theorem LeadsUp.getLast?_eq_some_iff {node : Node} {nodes : List Node} (h : LeadsUp node nodes)
    (hinverse : Inverse node.file) (top : Node) :
    (node :: nodes).getLast? = some top ↔ top.parent = .ok none ∧ Reaches top node := by
  induction h with
  | @top node hparent =>
      rw [List.getLast?_singleton, Option.some.injEq, reaches_iff]
      constructor
      · rintro rfl
        exact ⟨hparent, Or.inl rfl⟩
      · rintro ⟨_, hsame | hcontains⟩
        · exact hsame
        · exact absurd hcontains (not_contains_of_top hinverse hparent top)
  | @step node above rest hparent _ ih =>
      have hfile := ((parent_eq_some_iff ..).mp hparent).2
      rw [List.getLast?_cons_cons, ih (hfile ▸ hinverse), reaches_iff, reaches_iff]
      refine and_congr_right fun htop => ?_
      -- The node itself has a parent and is not the topmost one.
      have hne : node ≠ top := by
        rintro rfl
        rw [hparent] at htop
        exact absurd htop (by simp only [Except.ok.injEq, reduceCtorEq, not_false_eq_true])
      rw [or_iff_right hne, eq_comm]
      exact (contains_iff_of_parent hinverse hparent top).symm

-- The root of a file that a recipe made is its last node, so it is nobody's child.
theorem exists_root {file : SourceFile} (h : file.Built) :
    ∃ root, file.rootNode = .ok root ∧ root.parent = .ok none := by
  have hlinked := h.linked
  rcases h with ⟨steps, draft, statements, _, hfinish⟩
  rcases (finish_eq_ok_iff ..).mp hfinish with ⟨_, hfile⟩
  have hcells : file.cells = (draft.extend (.sourceFile statements) .none).cells :=
    congrArg SourceFile.cells hfile
  have hroot : file.root = draft.size := congrArg SourceFile.root hfile
  have hsize : file.size = file.root + 1 := by
    rw [hroot, SourceFile.size, hcells]
    exact Draft.size_extend ..
  rcases exists_node file file.root (hsize ▸ Nat.lt_succ_self _) with ⟨root, hnode⟩
  rcases (node_eq_ok_iff ..).mp hnode with ⟨rfl, hid⟩
  refine ⟨root, hnode, (parent_eq_none_iff root).mpr ?_⟩
  refine (hlinked.parent_eq_none_iff root.id root.cell (getElem?_id root)).mpr
    fun above hnames => ?_
  have hthere : above < root.file.size := lt_size_of_names hnames
  rw [hsize, ← hid] at hthere
  exact Nat.not_lt_of_le (Nat.le_of_lt_succ hthere) (hlinked.child_lt above root.id hnames)

/-- A file in which no node is used twice is a forest. The children of a node are the nodes that
    have it for their parent. A node is reached by going down from the root exactly if its way up
    ends there. And the topmost nodes, of which the root is one, divide the file among them: every
    node is reached from exactly one of them. -/
theorem forest_of_builtOnce (file : SourceFile) (h : file.BuiltOnce) :
    (∀ parent : Node, parent.file = file → ∃ nodes, parent.children = .ok nodes ∧
      ∀ child : Node, child ∈ nodes ↔ child.parent = .ok (some parent)) ∧
    (∃ root, file.rootNode = .ok root ∧ root.parent = .ok none ∧
      ∀ node : Node, node.file = file → ∃ nodes, node.ancestors = .ok nodes ∧
        (Reaches root node ↔ (node :: nodes).getLast? = some root)) ∧
    ∀ node : Node, node.file = file →
      ∃! top : Node, top.parent = .ok none ∧ Reaches top node := by
  have hlinked := h.linked
  have hinverse := inverse_of_namedOnce hlinked h.namedOnce
  refine ⟨?_, ?_, ?_⟩
  · rintro parent rfl
    rcases hlinked.exists_children with ⟨nodes, hnodes⟩
    refine ⟨nodes, hnodes, fun child => ?_⟩
    have hmem : child ∈ nodes ↔ HasChild parent child := by
      simp only [HasChild, hnodes, Except.ok.injEq, exists_eq_left']
    rw [hmem]
    constructor
    · intro hchild
      exact (hinverse parent child (file_of_hasChild hchild)).mp hchild
    · intro hparent
      have hfile := ((parent_eq_some_iff ..).mp hparent).2
      exact (hinverse parent child hfile.symm).mpr hparent
  · rcases exists_root h.built with ⟨root, hroot, htop⟩
    refine ⟨root, hroot, htop, ?_⟩
    rintro node rfl
    rcases exists_ancestors node hlinked with ⟨nodes, hnodes, hup⟩
    refine ⟨nodes, hnodes, ?_⟩
    rw [hup.getLast?_eq_some_iff hinverse]
    exact ⟨fun hreaches => ⟨htop, hreaches⟩, fun hboth => hboth.2⟩
  · rintro node rfl
    rcases exists_ancestors node hlinked with ⟨nodes, _, hup⟩
    refine ⟨(node :: nodes).getLast (List.cons_ne_nil _ _), ?_, fun top htop => ?_⟩
    · exact (hup.getLast?_eq_some_iff hinverse _).mp (List.getLast?_eq_some_getLast _)
    · have hlast := (hup.getLast?_eq_some_iff hinverse top).mpr htop
      rw [List.getLast?_eq_some_getLast (List.cons_ne_nil _ _), Option.some.injEq] at hlast
      exact hlast.symm

/-- A statement with a call, and a name that belongs to no program: it is topmost like the root, and
    the root does not reach it. -/
theorem forest_of_builtOnce_fragment :
    ∃ (file : SourceFile) (root fragment : Node), file.BuiltOnce ∧ file.rootNode = .ok root ∧
      fragment.file = file ∧ fragment.parent = .ok none ∧ ¬ Reaches root fragment := by
  have hbuilt : (SourceFile.mk "a.ts" #[⟨.identifier "f", .none, some 1, {}⟩,
      ⟨.callExpression 0 [], .none, some 3, {}⟩, ⟨.identifier "x", .none, none, {}⟩,
      ⟨.expressionStatement 1, .none, some 4, {}⟩, ⟨.sourceFile [3], .none, none, {}⟩]
      4 0).BuiltOnce :=
    ⟨[.identifier "f", .call 0 [], .identifier "x", .expressionStatement 1], _, [3], rfl, rfl,
      by decide⟩
  rcases (forest_of_builtOnce _ hbuilt).2.1 with ⟨root, hroot, -, hreaches⟩
  rcases hreaches ⟨_, 2, by decide⟩ rfl with ⟨nodes, hnodes, hends⟩
  refine ⟨_, root, ⟨_, 2, by decide⟩, hbuilt, hroot, rfl, rfl, fun hreached => ?_⟩
  -- Nothing is above the fragment, so its way up ends in itself.
  have hnil : [] = nodes := Except.ok.inj (Eq.trans rfl hnodes)
  subst hnil
  have hsame := Option.some.inj (hends.mp hreached)
  have hid := ((node_eq_ok_iff ..).mp hroot).2
  rw [← hsame] at hid
  exact absurd hid (by decide)

end TreeQuery
