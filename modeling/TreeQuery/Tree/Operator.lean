import TreeQuery.Tree.Kind

/-!
# Assignment operators

`a op= b` means `a = a op b`, and the operator between `a` and `b` on the right
is the base of the assignment. Twelve operators can be taken apart like that: the
arithmetic, the bitwise and the shifting ones.

The logical assignments `&&=`, `||=` and `??=` cannot. They assign, but they
evaluate their right side only if they need it, so they have no base here and do
not count as compound.

## Main definitions

* `Kind.isAssignment`: Whether a token assigns at all.
* `Kind.compoundBase?`: The operator inside a compound assignment.
* `Kind.isCompound`: Whether there is one.
-/

namespace TreeQuery.Kind

/-- Whether a token is an assignment operator, plain or compound, logical ones included. -/
def isAssignment (kind : Kind) : Bool :=
  kind == .equalsToken ||
    (plusEqualsToken.rank ≤ kind.rank && kind.rank ≤ questionQuestionEqualsToken.rank)

/-- The operator `op` of an assignment `op=` that means `a = a op b`. -/
def compoundBase? : Kind → Option Kind
  | .barEqualsToken => some .barToken
  | .plusEqualsToken => some .plusToken
  | .caretEqualsToken => some .caretToken
  | .minusEqualsToken => some .minusToken
  | .slashEqualsToken => some .slashToken
  | .percentEqualsToken => some .percentToken
  | .asteriskEqualsToken => some .asteriskToken
  | .ampersandEqualsToken => some .ampersandToken
  | .asteriskAsteriskEqualsToken => some .asteriskAsteriskToken
  | .lessThanLessThanEqualsToken => some .lessThanLessThanToken
  | .greaterThanGreaterThanEqualsToken => some .greaterThanGreaterThanToken
  | .greaterThanGreaterThanGreaterThanEqualsToken => some .greaterThanGreaterThanGreaterThanToken
  | _ => none

/-- Whether a token is an assignment with an operator inside. -/
def isCompound (kind : Kind) : Bool :=
  kind.compoundBase?.isSome

end TreeQuery.Kind
