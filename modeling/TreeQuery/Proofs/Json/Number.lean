import Mathlib.Data.List.TakeWhile
import TreeQuery.Proofs.Json.Text

/-!
# Numbers against the grammar

A number is read part by part, and each part is taken as far as it goes. In front of a
text that does not continue the number this is exactly the number; that is the only
place where what follows a value matters for how far it is read.

Of the parts only the digits are looked at one by one. The others are told by their
first character, and the grammar keeps these apart: no digit is a point, no point is
the letter of an exponent.

## Main definitions

* `NoDigit`: A text does not begin with a digit.

## Theorems

* `Numeral.exists_read_append`, `Numeral.exists_isNumber_of_read`: Numbers that are taken apart.
* `skipNumber_append`, `exists_isNumber_of_skipNumber`: Numbers that are skipped.
-/

namespace TreeQuery.Json

/-- The text does not begin with a digit. -/
def NoDigit (text : List Char) : Prop :=
  ∀ c rest, text = c :: rest → isDigit c = false

-- Digits do not begin with anything else.
theorem IsDigits.ne_cons {digits tail : List Char} {c : Char} (h : IsDigits digits)
    (hc : isDigit c = false) (rest : List Char) : digits ++ rest ≠ c :: tail := by
  rcases List.exists_cons_of_ne_nil h.1 with ⟨first, others, rfl⟩
  intro heq
  have hfirst := h.2 first List.mem_cons_self
  rw [(List.cons.inj heq).1, hc] at hfirst
  exact Bool.false_ne_true hfirst

theorem noDigit_of_ends {rest : List Char} (h : Ends rest) : NoDigit rest :=
  fun c tail heq => (h c tail heq).1

theorem noDigit_exponent {exponent rest : List Char} (h : IsExponent exponent)
    (hrest : Ends rest) : NoDigit (exponent ++ rest) := by
  rcases h with rfl | ⟨letter, sign, digits, hletter, _, _, rfl⟩
  · exact noDigit_of_ends hrest
  · intro c tail heq
    rw [← (List.cons.inj heq).1]
    rcases hletter with rfl | rfl <;> rfl

theorem noDigit_fraction {fraction exponent rest : List Char} (h : IsFraction fraction)
    (hexponent : IsExponent exponent) (hrest : Ends rest) :
    NoDigit (fraction ++ (exponent ++ rest)) := by
  rcases h with rfl | ⟨digits, _, rfl⟩
  · rw [List.nil_append]
    exact noDigit_exponent hexponent hrest
  · intro c tail heq
    rw [← (List.cons.inj heq).1]
    rfl

namespace Numeral

variable {atEnd : Fault}

theorem digits_append {found rest : List Char} (h : IsDigits found) (hrest : NoDigit rest) :
    digits atEnd (found ++ rest) = .ok (found, rest) := by
  rcases h with ⟨hne, hall⟩
  have hdrop : rest.dropWhile isDigit = rest ∧ rest.takeWhile isDigit = [] := by
    cases rest with
    | nil => exact ⟨rfl, rfl⟩
    | cons c tail =>
        have hc := hrest c tail rfl
        exact ⟨List.dropWhile_cons_of_neg (by rw [hc]; exact Bool.false_ne_true),
          List.takeWhile_cons_of_neg (by rw [hc]; exact Bool.false_ne_true)⟩
  rcases List.exists_cons_of_ne_nil hne with ⟨first, others, rfl⟩
  have hfirst := hall first List.mem_cons_self
  rw [List.cons_append, digits, if_pos hfirst, ← List.cons_append,
    List.takeWhile_append_of_pos hall, List.dropWhile_append_of_pos hall, hdrop.1, hdrop.2,
    List.append_nil]

theorem isDigits_of_digits {text found rest : List Char}
    (h : digits atEnd text = .ok (found, rest)) : IsDigits found ∧ text = found ++ rest := by
  unfold digits at h
  split at h
  · cases h
  next c tail =>
    split at h
    next hc =>
      simp only [Except.ok.injEq, Prod.mk.injEq] at h
      rcases h with ⟨rfl, rfl⟩
      refine ⟨⟨?_, fun d hd => List.mem_takeWhile_imp hd⟩, ?_⟩
      · rw [List.takeWhile_cons_of_pos hc]
        exact List.cons_ne_nil _ _
      · exact List.takeWhile_append_dropWhile.symm
    · cases h

-- A zero is refused in front of other digits, which is what the grammar says of it.
theorem leadingZero_iff (whole : List Char) :
    (whole.head? == some '0' && whole.length != 1) = false ↔
      (whole.head? = some '0' → whole = ['0']) := by
  rw [Bool.and_eq_false_imp, beq_iff_eq, bne_eq_false_iff_eq]
  cases whole with
  | nil => simp only [List.head?_nil, reduceCtorEq, false_implies]
  | cons c rest =>
      simp only [List.head?_cons, Option.some.injEq, List.length_cons, Nat.add_eq_right,
        List.length_eq_zero_iff, List.cons.injEq]
      exact imp_congr_right fun hc => (and_iff_right hc).symm

theorem readWhole_append {whole rest : List Char} (h : IsWhole whole) (hrest : NoDigit rest) :
    readWhole atEnd (whole ++ rest) = .ok (whole, rest) := by
  simp only [readWhole, digits_append h.1 hrest, (leadingZero_iff whole).mpr h.2,
    Bool.false_eq_true, if_false]

theorem isWhole_of_readWhole {text whole rest : List Char}
    (h : readWhole atEnd text = .ok (whole, rest)) : IsWhole whole ∧ text = whole ++ rest := by
  unfold readWhole at h
  split at h
  · cases h
  next hread =>
    split at h
    · cases h
    next hzero =>
      simp only [Except.ok.injEq, Prod.mk.injEq] at h
      rcases h with ⟨rfl, rfl⟩
      rcases isDigits_of_digits hread with ⟨hdigits, rfl⟩
      exact ⟨⟨hdigits, (leadingZero_iff _).mp (eq_false_of_ne_true hzero)⟩, rfl⟩

theorem readFraction_append {fraction exponent rest : List Char} (h : IsFraction fraction)
    (hexponent : IsExponent exponent) (hrest : Ends rest) :
    readFraction atEnd (fraction ++ (exponent ++ rest)) =
      .ok (fraction.tail, exponent ++ rest) := by
  rcases h with rfl | ⟨found, hfound, rfl⟩
  · have hpoint : ∀ tail, exponent ++ rest ≠ '.' :: tail := by
      rcases hexponent with rfl | ⟨letter, sign, found, hletter, _, _, rfl⟩
      · intro tail heq
        exact (hrest '.' tail heq).2.1 rfl
      · intro tail heq
        rw [(List.cons.inj heq).1] at hletter
        exact absurd hletter (by decide)
    rw [List.nil_append, readFraction]
    · rfl
    · exact hpoint
  · exact digits_append hfound (noDigit_exponent hexponent hrest)

theorem exists_isFraction_of_readFraction {text found rest : List Char}
    (h : readFraction atEnd text = .ok (found, rest)) :
    ∃ fraction, IsFraction fraction ∧ text = fraction ++ rest := by
  unfold readFraction at h
  split at h
  next tail =>
    rcases isDigits_of_digits h with ⟨hfound, rfl⟩
    exact ⟨'.' :: found, Or.inr ⟨found, hfound, rfl⟩, rfl⟩
  · simp only [Except.ok.injEq, Prod.mk.injEq] at h
    exact ⟨[], Or.inl rfl, h.2⟩

theorem exponentSign_append {sign found : List Char}
    (hsign : sign = [] ∨ sign = ['+'] ∨ sign = ['-']) (hfound : IsDigits found)
    (rest : List Char) :
    exponentSign (sign ++ (found ++ rest)) = (sign == ['-'], found ++ rest) := by
  rcases hsign with rfl | rfl | rfl
  · rw [List.nil_append, exponentSign]
    · rfl
    · exact fun tail heq => hfound.ne_cons (by decide) rest heq
    · exact fun tail heq => hfound.ne_cons (by decide) rest heq
  · rfl
  · rfl

theorem exists_sign_of_exponentSign (text : List Char) :
    ∃ sign, (sign = [] ∨ sign = ['+'] ∨ sign = ['-']) ∧ text = sign ++ (exponentSign text).2 := by
  unfold exponentSign
  split
  · exact ⟨['+'], Or.inr (Or.inl rfl), rfl⟩
  · exact ⟨['-'], Or.inr (Or.inr rfl), rfl⟩
  · exact ⟨[], Or.inl rfl, rfl⟩

theorem exists_readExponent_append {exponent : List Char} (h : IsExponent exponent) :
    ∃ found, ∀ atEnd rest, Ends rest →
      readExponent atEnd (exponent ++ rest) = .ok (found, rest) := by
  rcases h with rfl | ⟨letter, sign, found, hletter, hsign, hfound, rfl⟩
  · refine ⟨none, fun atEnd rest hrest => ?_⟩
    rw [List.nil_append]
    cases rest with
    | nil => rfl
    | cons c tail =>
        have hc : opensExponent c = false := by
          rcases (hrest c tail rfl).2.2 with ⟨hlower, hupper⟩
          rw [opensExponent, beq_false_of_ne hlower, beq_false_of_ne hupper]
          rfl
        simp only [readExponent, hc, Bool.false_eq_true, if_false]
  · refine ⟨some (sign == ['-'], found), fun atEnd rest hrest => ?_⟩
    have hletter : opensExponent letter = true := by
      rcases hletter with rfl | rfl <;> rfl
    simp only [List.cons_append, List.append_assoc, readExponent, hletter, if_true,
      exponentSign_append hsign hfound, digits_append hfound (noDigit_of_ends hrest)]

theorem exists_isExponent_of_readExponent {text rest : List Char}
    {found : Option (Bool × List Char)} (h : readExponent atEnd text = .ok (found, rest)) :
    ∃ exponent, IsExponent exponent ∧ text = exponent ++ rest := by
  unfold readExponent at h
  split at h
  · simp only [Except.ok.injEq, Prod.mk.injEq] at h
    exact ⟨[], Or.inl rfl, h.2⟩
  next letter tail =>
    split at h
    next hletter =>
      rw [opensExponent, Bool.or_eq_true, beq_iff_eq, beq_iff_eq] at hletter
      split at h
      · cases h
      next hread =>
        simp only [Except.ok.injEq, Prod.mk.injEq] at h
        rcases isDigits_of_digits hread with ⟨hfound, hrest⟩
        rcases exists_sign_of_exponentSign tail with ⟨sign, hsign, htail⟩
        refine ⟨_, Or.inr ⟨letter, sign, _, hletter, hsign, hfound, rfl⟩, ?_⟩
        rw [htail, hrest, h.2, List.cons_append, List.append_assoc]
    · simp only [Except.ok.injEq, Prod.mk.injEq] at h
      exact ⟨[], Or.inl rfl, h.2⟩

theorem minus_append {sign whole : List Char} (hsign : IsSign sign) (hwhole : IsDigits whole)
    (rest : List Char) : minus (sign ++ (whole ++ rest)) = (sign == ['-'], whole ++ rest) := by
  rcases hsign with rfl | rfl
  · rw [List.nil_append, minus]
    · rfl
    · exact fun tail heq => hwhole.ne_cons (by decide) rest heq
  · rfl

theorem exists_sign_of_minus (text : List Char) :
    ∃ sign, IsSign sign ∧ text = sign ++ (minus text).2 := by
  unfold minus
  split
  · exact ⟨['-'], Or.inr rfl, rfl⟩
  · exact ⟨[], Or.inl rfl, rfl⟩

/-- A number is taken apart in the same way whatever follows it. -/
theorem exists_read_append {number : List Char} (h : IsNumber number) :
    ∃ numeral, ∀ atEnd rest, Ends rest → read atEnd (number ++ rest) = .ok (numeral, rest) := by
  cases h with
  | @parts sign whole fraction exponent hsign hwhole hfraction hexponent =>
      rcases exists_readExponent_append hexponent with ⟨found, hfound⟩
      refine ⟨⟨sign == ['-'], whole, fraction.tail, found⟩, fun atEnd rest hrest => ?_⟩
      have hbehind := noDigit_fraction hfraction hexponent hrest
      simp only [List.append_assoc, read, minus_append hsign hwhole.1,
        readWhole_append hwhole hbehind, readFraction_append hfraction hexponent hrest,
        hfound atEnd rest hrest]

/-- What is taken apart as a number is one. -/
theorem exists_isNumber_of_read {text rest : List Char} {numeral : Numeral}
    (h : read atEnd text = .ok (numeral, rest)) :
    ∃ number, IsNumber number ∧ text = number ++ rest := by
  rcases exists_sign_of_minus text with ⟨sign, hsign, htext⟩
  unfold read at h
  split at h
  · cases h
  next hread =>
    rcases isWhole_of_readWhole hread with ⟨hwhole, hbehind⟩
    split at h
    · cases h
    next hread =>
      rcases exists_isFraction_of_readFraction hread with ⟨fraction, hfraction, rfl⟩
      split at h
      · cases h
      next hread =>
        rcases exists_isExponent_of_readExponent hread with ⟨exponent, hexponent, rfl⟩
        simp only [Except.ok.injEq, Prod.mk.injEq] at h
        refine ⟨_, IsNumber.parts hsign hwhole hfraction hexponent, ?_⟩
        rw [htext, hbehind, h.2]
        simp only [List.append_assoc]

end Numeral

theorem skipNumber_append {number rest : List Char} (h : IsNumber number) (hrest : Ends rest) :
    skipNumber (number ++ rest) = .ok rest := by
  rcases Numeral.exists_read_append h with ⟨numeral, hread⟩
  simp only [skipNumber, hread _ rest hrest]

theorem exists_isNumber_of_skipNumber {text rest : List Char} (h : skipNumber text = .ok rest) :
    ∃ number, IsNumber number ∧ text = number ++ rest := by
  unfold skipNumber at h
  split at h
  · cases h
  next hread =>
    rw [← Except.ok.inj h]
    exact Numeral.exists_isNumber_of_read hread

end TreeQuery.Json
