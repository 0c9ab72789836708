import TreeQuery.Proofs.Text.Quoted
import TreeQuery.Tree.File
import TreeQuery.Tree.Step

/-!
# What the description of a node tells

Messages show a node by its kind, its number, and its text if it has one. Such a description
tells all three of them, and of nodes in different files as well as of nodes in one. The three
parts are told apart from the front. The name of a kind ends at the first sign for a number,
since no name of a kind contains it. The number ends where its digits end. What is left is the
text, which is quoted, so that it does not matter whether it looks like the end of a
description, or like the beginning of another one.

The same form can occur at the same place in two files. So a description does not tell the
file, and two nodes with one description need not be the same node.

## Main definitions

* `shownText`: The text of a node as its description shows it.

## Theorems

* `Kind.label_injective`: Kinds have different names.
* `toDigits_ten_injective`: Numbers have different digits.
* `shownText_injective`: Different texts are shown differently.
* `Node.description_tells_node`: When two nodes are described alike.
-/

namespace TreeQuery

open Text

theorem Kind.ofLabel?_label (kind : Kind) : ofLabel? kind.label = some kind := by
  have hall : ∀ kind ∈ all, ofLabel? kind.label = some kind := by decide +kernel
  exact hall kind (mem_all kind)

/-- Kinds have different names. -/
theorem Kind.label_injective : Function.Injective label := by
  intro left right h
  have hread := congrArg ofLabel? h
  rwa [ofLabel?_label, ofLabel?_label, Option.some.injEq] at hread

-- Names of kinds consist of letters.
theorem Kind.isAlpha_of_mem_label (kind : Kind) : ∀ c ∈ kind.label.toList, c.isAlpha = true := by
  have hall : (all.all fun kind => kind.label.toList.all Char.isAlpha) = true := by
    decide +kernel
  exact List.all_eq_true.mp (List.all_eq_true.mp hall kind (mem_all kind))

theorem isDigit_of_mem_toDigits_ten (n : Nat) : ∀ c ∈ Nat.toDigits 10 n, c.isDigit = true :=
  fun _ hc => Nat.isDigit_of_mem_toDigits (by decide) (by decide) hc

theorem toDigits_ten_injective : Function.Injective (Nat.toDigits 10) := by
  intro left right h
  rw [← Nat.ofDigitChars_ten_toDigits (n := left), h, Nat.ofDigitChars_ten_toDigits]

/-- The text of a node as its description shows it. A node without a text shows nothing. -/
def shownText : Option String → List Char
  | none => []
  | some text => '(' :: ((quote text).toList ++ [')'])

theorem shownText_injective : Function.Injective shownText := by
  intro left right h
  cases left with
  | none =>
      cases right with
      | none => rfl
      | some text => exact absurd h (List.cons_ne_nil _ _).symm
  | some text =>
      cases right with
      | none => exact absurd h (List.cons_ne_nil _ _)
      | some other =>
          have hquoted := List.append_cancel_right (List.cons.inj h).2
          rw [quote_injective (String.toList_inj.mp hquoted)]

-- The digits of the number in front end here.
theorem takeWhile_shownText (text? : Option String) :
    (shownText text?).takeWhile Char.isDigit = [] := by
  cases text? <;> rfl

theorem lineFeed_not_mem_shownText (text? : Option String) : '\n' ∉ shownText text? := by
  cases text? with
  | none => exact List.not_mem_nil
  | some text =>
      rw [shownText, List.mem_cons, List.mem_append, List.mem_singleton]
      rintro (hopen | hquoted | hclose)
      · exact absurd hopen (by decide)
      · exact lineFeed_not_mem_quote text hquoted
      · exact absurd hclose (by decide)

namespace Node

/-- The characters of a description. -/
theorem toList_describe (node : Node) : node.describe.toList =
    node.kind.label.toList ++ '#' :: (Nat.toDigits 10 node.id ++ shownText node.text?) := by
  have hmark : "#".toList = ['#'] := by decide
  have hopen : "(".toList = ['('] := by decide
  have hclose : ")".toList = [')'] := by decide
  have hnumber : (toString node.id).toList = Nat.toDigits 10 node.id := by
    rw [Nat.toString_eq_repr, Nat.toList_repr]
  rw [describe, String.toList_append, String.toList_append, String.toList_append, hmark, hnumber,
    List.append_assoc, List.append_assoc, List.singleton_append]
  cases node.text? with
  | none => rfl
  | some text =>
      rw [String.toList_append, String.toList_append, hopen, hclose, shownText, List.append_assoc,
        List.singleton_append]

-- A description is taken apart from the front.
theorem eq_of_describe_eq {left right : Node} (h : left.describe = right.describe) :
    left.kind = right.kind ∧ left.id = right.id ∧ left.text? = right.text? := by
  have hlists := congrArg String.toList h
  rw [toList_describe, toList_describe] at hlists
  have hmark : ∀ kind : Kind, '#' ∉ kind.label.toList :=
    fun kind hmem => absurd (kind.isAlpha_of_mem_label '#' hmem) (by decide)
  rcases append_cons_inj (hmark _) (hmark _) hlists with ⟨hlabel, hbehind⟩
  rcases append_inj_of_run (isDigit_of_mem_toDigits_ten _) (isDigit_of_mem_toDigits_ten _)
    (takeWhile_shownText _) (takeWhile_shownText _) hbehind with ⟨hdigits, htext⟩
  exact ⟨Kind.label_injective (String.toList_inj.mp hlabel), toDigits_ten_injective hdigits,
    shownText_injective htext⟩

theorem lineFeed_not_mem_describe (node : Node) : '\n' ∉ node.describe.toList := by
  rw [toList_describe, List.mem_append, List.mem_cons, List.mem_append]
  rintro (hlabel | hmark | hdigit | htext)
  · exact absurd (node.kind.isAlpha_of_mem_label _ hlabel) (by decide)
  · exact absurd hmark (by decide)
  · exact absurd (isDigit_of_mem_toDigits_ten _ _ hdigit) (by decide)
  · exact lineFeed_not_mem_shownText _ htext

/-- Two nodes, of one file or of two, are described alike exactly if they have the same kind, the
    same number and the same text, or neither has a text. And whatever the text of a node is, its
    description stands on one line. -/
theorem description_tells_node :
    (∀ left right : Node, left.describe = right.describe ↔
      left.kind = right.kind ∧ left.id = right.id ∧ left.text? = right.text?) ∧
    ∀ node : Node, '\n' ∉ node.describe.toList := by
  refine ⟨fun left right => ⟨eq_of_describe_eq, fun hsame => ?_⟩, lineFeed_not_mem_describe⟩
  rcases hsame with ⟨hkind, hid, htext⟩
  rw [describe, hkind, hid, htext, ← describe]

/-- In two files the first node is a string. The text of the one has a quote, a line feed and an
    accent, and looks like the end of a description with another one behind it. The text of the
    other is what the description of the one shows between its quotes. -/
theorem description_tells_node_escaped :
    ∃ draft file last other left right,
      (({} : Draft).run [.stringLiteral "\")\n#0(\u0301"]).outcome = .ok draft ∧
      draft.finish "a.ts" [] = .ok file ∧ file.node 0 = .ok left ∧
      (({} : Draft).run [.stringLiteral "\\\")\\n#0(\\u\x7b301\x7d"]).outcome = .ok last ∧
      last.finish "a.ts" [] = .ok other ∧ other.node 0 = .ok right ∧
      left.describe = "StringLiteral#0(\"\\\")\\n#0(\\u\x7b301\x7d\")" ∧
      '\n' ∉ left.describe.toList ∧ left.describe ≠ right.describe := by
  rcases description_tells_node with ⟨hiff, hline⟩
  refine ⟨_, _, _, _, _, _, rfl, rfl, rfl, rfl, rfl, rfl, by decide +kernel, hline _, ?_⟩
  rw [ne_eq, hiff]
  exact fun hsame => absurd hsame.2.2 (by decide)

end Node

end TreeQuery
