import Mathlib.Data.List.TakeWhile
import TreeQuery.Proofs.Json.Grammar

/-!
# Blanks, words and strings against the grammar

The readers of the small parts of a text, and what they read. Each reader takes from the
front of a text a part that the grammar has, and returns what follows it; and if such a
part stands in front of any text, the reader takes exactly that.

A string is read in two ways, and the grammar has a description for each. Content that
is merely skipped is always skipped. Content that is read spells something or is
malformed, and which of the two does not depend on what stands behind the string.
The reason is that a half of a character is looked for among the characters that follow
it, and the quote that closes the string is none of those that would make it whole.

## Theorems

* `skipBlanks_append_cons`, `exists_blanks_of_skipBlanks`: Blanks.
* `skipWord_eq_ok_iff`: Fixed words.
* `readHex_append`, `exists_isHex_of_readHex`: The digits of an escape by number.
* `readEscape_append`, `exists_spellsChar_of_readEscape`: Escapes.
* `readText_append`, `exists_spells_of_readText`: Strings that are read.
* `spells_or_malformed`: Content spells something or is malformed.
* `skipText_append`, `exists_isContent_of_skipText`: Strings that are skipped.
-/

namespace TreeQuery.Json

theorem skipBlanks_append {gap : List Char} (h : Blanks gap) (text : List Char) :
    skipBlanks (gap ++ text) = skipBlanks text :=
  List.dropWhile_append_of_pos fun c hc => isBlank_eq_true_iff.mpr (h c hc)

theorem skipBlanks_append_cons {gap : List Char} {c : Char} (h : Blanks gap)
    (hc : isBlank c = false) (rest : List Char) : skipBlanks (gap ++ c :: rest) = c :: rest := by
  rw [skipBlanks_append h, skipBlanks, List.dropWhile_cons_of_neg]
  rw [hc]
  exact Bool.false_ne_true

theorem skipBlanks_of_blanks {gap : List Char} (h : Blanks gap) : skipBlanks gap = [] := by
  have hskip := skipBlanks_append h []
  rw [List.append_nil] at hskip
  rw [hskip]
  rfl

theorem exists_blanks_of_skipBlanks {text rest : List Char} (h : skipBlanks text = rest) :
    ∃ gap, Blanks gap ∧ text = gap ++ rest := by
  refine ⟨text.takeWhile isBlank, fun c hc => ?_, ?_⟩
  · exact isBlank_eq_true_iff.mp (List.mem_takeWhile_imp hc)
  · rw [← h]
    exact List.takeWhile_append_dropWhile.symm

theorem skipWord_eq_ok_iff {word text rest : List Char} :
    skipWord word text = .ok rest ↔ text = word ++ rest := by
  induction word generalizing text with
  | nil => simp only [skipWord, Except.ok.injEq, List.nil_append]
  | cons c word ih =>
      cases text with
      | nil => simp only [skipWord, reduceCtorEq, List.cons_append]
      | cons d text =>
          by_cases hc : c = d
          · simp only [skipWord, hc, if_true, ih, List.cons_append, List.cons.injEq, true_and]
          · simp only [skipWord, if_neg hc, reduceCtorEq, List.cons_append, List.cons.injEq,
              Ne.symm hc, false_and]

theorem escaped?_eq_some_iff {letter c : Char} :
    escaped? letter = some c ↔ (letter, c) ∈ escapes := by
  constructor
  · intro h
    unfold escaped? at h
    split at h
    case h_9 => cases h
    all_goals
      rw [← Option.some.inj h]
      decide
  · intro h
    have hall : ∀ entry ∈ escapes, escaped? entry.1 = some entry.2 := by decide
    exact hall (letter, c) h

theorem toNat_lt_of_hexDigit? {c : Char} {n : Nat} (h : hexDigit? c = some n) :
    c.toNat < 128 := by
  have hlt : ∀ d : Char, c ≤ d → d.toNat < 128 → c.toNat < 128 := fun d hle hd =>
    Nat.lt_of_le_of_lt (UInt32.le_iff_toNat_le.mp hle) hd
  unfold hexDigit? at h
  split at h
  next hdigit => exact hlt '9' hdigit.2 (by decide)
  split at h
  next hlower => exact hlt 'f' hlower.2 (by decide)
  split at h
  next hupper => exact hlt 'F' hupper.2 (by decide)
  cases h

-- A digit is an ASCII character, and of those there are few enough to try them all.
theorem hexDigit?_eq_some_iff {c : Char} {n : Nat} :
    hexDigit? c = some n ↔ (c, n) ∈ hexDigits := by
  constructor
  · intro h
    have hall : ∀ k < 128, ∀ value ∈ hexDigit? (Char.ofNat k),
        (Char.ofNat k, value) ∈ hexDigits := by decide +kernel
    have hdigit := hall c.toNat (toNat_lt_of_hexDigit? h) n
    rw [Char.ofNat_toNat] at hdigit
    exact hdigit h
  · intro h
    have hall : ∀ entry ∈ hexDigits, hexDigit? entry.1 = some entry.2 := by decide
    exact hall (c, n) h

theorem hexNumber?_eq_some_iff {a b c d : Char} {n : Nat} :
    hexNumber? a b c d = some n ↔ IsHex [a, b, c, d] n := by
  simp only [hexNumber?, Option.bind_eq_bind, Option.bind_eq_some_iff, hexDigit?_eq_some_iff,
    Option.pure_def, Option.some.injEq]
  constructor
  · intro h
    rcases h with ⟨w, ha, x, hb, y, hc, z, hd, rfl⟩
    exact IsHex.digits ha hb hc hd
  · intro h
    cases h with
    | digits ha hb hc hd => exact ⟨_, ha, _, hb, _, hc, _, hd, rfl⟩

-- Every character takes a byte at least.
theorem hasFourBytes_cons (a b c d : Char) (rest : List Char) :
    hasFourBytes (a :: b :: c :: d :: rest) = true := by
  have := a.utf8Size_pos
  have := b.utf8Size_pos
  have := c.utf8Size_pos
  have := d.utf8Size_pos
  rw [hasFourBytes, decide_eq_true_eq]
  simp only [List.take_succ_cons, List.take_zero, List.foldl_cons, List.foldl_nil]
  omega

theorem readHex_append {digits : List Char} {n : Nat} (h : IsHex digits n) (rest : List Char) :
    readHex (digits ++ rest) = .ok (n, rest) := by
  cases h with
  | @digits a b c d w x y z ha hb hc hd =>
      have hnumber := hexNumber?_eq_some_iff.mpr (IsHex.digits ha hb hc hd)
      simp only [List.cons_append, List.nil_append, readHex, hasFourBytes_cons, if_true, hnumber]

theorem exists_isHex_of_readHex {text rest : List Char} {n : Nat}
    (h : readHex text = .ok (n, rest)) : ∃ digits, IsHex digits n ∧ text = digits ++ rest := by
  unfold readHex at h
  split at h
  · split at h
    next =>
      split at h
      next hnumber =>
        simp only [Except.ok.injEq, Prod.mk.injEq] at h
        rcases h with ⟨rfl, rfl⟩
        exact ⟨_, hexNumber?_eq_some_iff.mp hnumber, rfl⟩
      · cases h
    · cases h
  · cases h

theorem not_isLowHalf_of_isHighHalf {n : Nat} (h : isHighHalf n = true) : isLowHalf n = false := by
  simp only [isHighHalf, Bool.and_eq_true, decide_eq_true_eq] at h
  simp only [isLowHalf, Bool.and_eq_false_iff, decide_eq_false_iff_not]
  omega

theorem readEscape_letter {letter c : Char} (h : (letter, c) ∈ escapes) (rest : List Char) :
    letter ≠ 'u' ∧ readEscape (letter :: rest) = .ok (c, rest) := by
  have hne : letter ≠ 'u' := by
    rintro rfl
    cases escaped?_eq_some_iff.mpr h
  refine ⟨hne, ?_⟩
  simp only [readEscape, if_neg hne, escaped?_eq_some_iff.mpr h]

/-- An escape is read as the character that it spells. -/
theorem readEscape_append {piece : List Char} {c : Char} (h : SpellsChar ('\\' :: piece) c)
    (rest : List Char) : readEscape (piece ++ rest) = .ok (c, rest) := by
  cases h with
  | plain hplain => exact absurd rfl hplain.not_backslash
  | letter hletter => exact (readEscape_letter hletter rest).2
  | number hnumber hlow hhigh =>
      simp only [List.cons_append, readEscape, if_true, readNumbered, readHex_append hnumber, hlow,
        hhigh, Bool.false_eq_true, if_false]
  | halves hnumber hhigh hnumber' hlow =>
      simp only [List.cons_append, List.append_assoc, readEscape, if_true, readNumbered,
        readHex_append hnumber, readHex_append hnumber', not_isLowHalf_of_isHighHalf hhigh, hhigh,
        hlow, Bool.false_eq_true, if_false]

theorem exists_spellsChar_of_readNumbered {text rest : List Char} {c : Char}
    (h : readNumbered text = .ok (c, rest)) :
    ∃ piece, SpellsChar ('\\' :: 'u' :: piece) c ∧ text = piece ++ rest := by
  unfold readNumbered at h
  split at h
  · cases h
  next n after hread =>
    rcases exists_isHex_of_readHex hread with ⟨digits, hdigits, rfl⟩
    split at h
    · cases h
    next hlow =>
      split at h
      next hhigh =>
        -- A first half: behind it stand a backslash, the letter and a second half.
        split at h
        · cases h
        next slash behind =>
          split at h
          next hslash =>
            split at h
            · cases h
            next letter more =>
              split at h
              next hletter =>
                split at h
                · cases h
                next low last hread' =>
                  rcases exists_isHex_of_readHex hread' with ⟨digits', hdigits', rfl⟩
                  split at h
                  next hlow' =>
                    simp only [Except.ok.injEq, Prod.mk.injEq] at h
                    rcases h with ⟨rfl, rfl⟩
                    refine ⟨_, SpellsChar.halves hdigits hhigh hdigits' hlow', ?_⟩
                    rw [hslash, hletter, List.append_assoc]
                    rfl
                  · cases h
              · cases h
          · cases h
      next hhigh =>
        simp only [Except.ok.injEq, Prod.mk.injEq] at h
        rcases h with ⟨rfl, rfl⟩
        exact ⟨digits, SpellsChar.number hdigits (eq_false_of_ne_true hlow)
          (eq_false_of_ne_true hhigh), rfl⟩

theorem exists_spellsChar_of_readEscape {text rest : List Char} {c : Char}
    (h : readEscape text = .ok (c, rest)) :
    ∃ piece, SpellsChar ('\\' :: piece) c ∧ text = piece ++ rest := by
  cases text with
  | nil => cases h
  | cons letter tail =>
      rw [readEscape] at h
      split at h
      next hu =>
        rcases exists_spellsChar_of_readNumbered h with ⟨piece, hpiece, rfl⟩
        rw [hu]
        exact ⟨'u' :: piece, hpiece, rfl⟩
      · split at h
        next d hescaped =>
          simp only [Except.ok.injEq, Prod.mk.injEq] at h
          rcases h with ⟨rfl, rfl⟩
          exact ⟨[letter], SpellsChar.letter (escaped?_eq_some_iff.mp hescaped), rfl⟩
        · cases h

theorem readTextFrom_quote (read rest : List Char) :
    readTextFrom read ('"' :: rest) = .ok (String.ofList read.reverse, rest) := by
  rw [readTextFrom, if_pos rfl]

theorem readTextFrom_plain {c : Char} (h : Plain c) (read rest : List Char) :
    readTextFrom read (c :: rest) = readTextFrom (c :: read) rest := by
  rw [readTextFrom, if_neg h.not_quote, if_neg h.not_backslash,
    if_neg (Nat.not_lt.mpr h.not_control)]

theorem readTextFrom_escape {text after : List Char} {c : Char}
    (h : readEscape text = .ok (c, after)) (read : List Char) :
    readTextFrom read ('\\' :: text) = readTextFrom (c :: read) after := by
  rw [readTextFrom, if_neg (by decide), if_pos rfl]
  split
  next hfault => cases h.symm.trans hfault
  next hread =>
    rcases Prod.mk.inj (Except.ok.inj (h.symm.trans hread)) with ⟨rfl, rfl⟩
    rfl

theorem readTextFrom_fault {text : List Char} {fault : Fault}
    (h : readEscape text = .error fault) (read : List Char) :
    readTextFrom read ('\\' :: text) = .error fault := by
  rw [readTextFrom, if_neg (by decide), if_pos rfl]
  split
  next hfault => rw [← Except.error.inj (h.symm.trans hfault)]
  next hread => cases h.symm.trans hread

theorem readTextFrom_spellsChar {piece : List Char} {c : Char} (h : SpellsChar piece c)
    (read rest : List Char) :
    readTextFrom read (piece ++ rest) = readTextFrom (c :: read) rest := by
  cases h with
  | plain hplain => exact readTextFrom_plain hplain read rest
  | letter hletter =>
      exact readTextFrom_escape (readEscape_append (SpellsChar.letter hletter) rest) read
  | number hnumber hlow hhigh =>
      exact readTextFrom_escape (readEscape_append (SpellsChar.number hnumber hlow hhigh) rest) read
  | halves hnumber hhigh hnumber' hlow =>
      exact readTextFrom_escape
        (readEscape_append (SpellsChar.halves hnumber hhigh hnumber' hlow) rest) read

theorem readTextFrom_append {content cs : List Char} (h : Spells content cs)
    (read rest : List Char) : readTextFrom read (content ++ '"' :: rest) =
      .ok (String.ofList (read.reverse ++ cs), rest) := by
  induction h generalizing read with
  | nil =>
      rw [List.nil_append, readTextFrom_quote, List.append_nil]
  | cons hpiece _ ih =>
      rw [List.append_assoc, readTextFrom_spellsChar hpiece, ih, List.reverse_cons,
        List.append_assoc, List.singleton_append]

/-- A string is read as what it spells. -/
theorem readText_append {content : List Char} {value : String} (h : Spells content value.toList)
    (rest : List Char) : readText (content ++ '"' :: rest) = .ok (value, rest) := by
  rw [readText, readTextFrom_append h, List.reverse_nil, List.nil_append, String.ofList_toList]

theorem exists_spells_of_readTextFrom {read text rest : List Char} {value : String}
    (h : readTextFrom read text = .ok (value, rest)) :
    ∃ content cs, Spells content cs ∧ value.toList = read.reverse ++ cs ∧
      text = content ++ '"' :: rest := by
  fun_induction readTextFrom read text with
  | case1 | case3 | case5 => cases h
  | case2 read tail =>
      simp only [Except.ok.injEq, Prod.mk.injEq] at h
      rcases h with ⟨rfl, rfl⟩
      exact ⟨[], [], Spells.nil, by rw [String.toList_ofList, List.append_nil], rfl⟩
  | case4 read tail d after hread _ ih =>
      rcases exists_spellsChar_of_readEscape hread with ⟨piece, hpiece, rfl⟩
      rcases ih h with ⟨content, cs, hcontent, hvalue, rfl⟩
      refine ⟨_, d :: cs, Spells.cons hpiece hcontent, ?_, ?_⟩
      · rw [hvalue, List.reverse_cons, List.append_assoc, List.singleton_append]
      · rw [List.append_assoc]
        rfl
  | case6 read c tail hquote hslash hcontrol ih =>
      rcases ih h with ⟨content, cs, hcontent, hvalue, rfl⟩
      have hplain : Plain c := ⟨hquote, hslash, Nat.le_of_not_lt hcontrol⟩
      refine ⟨_, c :: cs, Spells.cons (SpellsChar.plain hplain) hcontent, ?_, rfl⟩
      rw [hvalue, List.reverse_cons, List.append_assoc, List.singleton_append]

/-- What is read as a string spells it. -/
theorem exists_spells_of_readText {text rest : List Char} {value : String}
    (h : readText text = .ok (value, rest)) :
    ∃ content, Spells content value.toList ∧ text = content ++ '"' :: rest := by
  rcases exists_spells_of_readTextFrom h with ⟨content, cs, hcontent, hvalue, htext⟩
  rw [List.reverse_nil, List.nil_append] at hvalue
  rw [hvalue]
  exact ⟨content, hcontent, htext⟩

-- The second half of a character is looked for in what follows the first half. There it is found
-- or something else is, be it the closing quote.
theorem readEscape_high {digits content : List Char} {n : Nat} (hdigits : IsHex digits n)
    (hhigh : isHighHalf n = true) (hcontent : IsContent content) :
    (∀ rest, readEscape ('u' :: (digits ++ (content ++ '"' :: rest))) = .error .malformed) ∨
      ∃ digits' low more, IsHex digits' low ∧ isLowHalf low = true ∧ IsContent more ∧
        content = '\\' :: 'u' :: (digits' ++ more) := by
  have hread : ∀ text, readEscape ('u' :: (digits ++ text)) = readNumbered (digits ++ text) :=
    fun text => by rw [readEscape, if_pos rfl]
  simp only [hread, readNumbered, readHex_append hdigits, not_isLowHalf_of_isHighHalf hhigh, hhigh,
    Bool.false_eq_true, if_false, if_true]
  cases hcontent with
  | nil => exact Or.inl fun _ => rfl
  | @cons piece more hpiece hmore =>
      cases hpiece with
      | plain hplain =>
          refine Or.inl fun _ => ?_
          simp only [List.cons_append, List.nil_append, if_neg hplain.not_backslash]
      | letter hletter =>
          refine Or.inl fun _ => ?_
          have hne := (readEscape_letter hletter []).1
          simp only [List.cons_append, List.nil_append, if_true, if_neg hne]
      | @number digits' low hnumber =>
          cases hlow : isLowHalf low with
          | true => exact Or.inr ⟨digits', low, more, hnumber, hlow, hmore, rfl⟩
          | false =>
              refine Or.inl fun _ => ?_
              simp only [List.cons_append, List.append_assoc, if_true, readHex_append hnumber, hlow,
                Bool.false_eq_true, if_false]

/-- The content of a string spells something, or the string is malformed whatever stands behind it.
    The induction is on the length, because a character may take two pieces. -/
theorem spells_or_malformed {content : List Char} (h : IsContent content) :
    (∃ cs, Spells content cs) ∨
      ∀ read rest, readTextFrom read (content ++ '"' :: rest) = .error .malformed := by
  induction hlength : content.length using Nat.strong_induction_on generalizing content with
  | _ length ih =>
    have hpush : ∀ {piece more : List Char} {c : Char}, SpellsChar piece c → IsContent more →
        more.length < length → (∃ cs, Spells (piece ++ more) cs) ∨
          ∀ read rest, readTextFrom read (piece ++ more ++ '"' :: rest) = .error .malformed := by
      intro piece more c hpiece hmore hlt
      rcases ih more.length hlt hmore rfl with ⟨cs, hcs⟩ | hmalformed
      · exact Or.inl ⟨c :: cs, Spells.cons hpiece hcs⟩
      · refine Or.inr fun read rest => ?_
        rw [List.append_assoc, readTextFrom_spellsChar hpiece]
        exact hmalformed (c :: read) rest
    cases h with
    | nil => exact Or.inl ⟨[], Spells.nil⟩
    | @cons piece more hpiece hmore =>
        rw [List.length_append] at hlength
        cases hpiece with
        | plain hplain =>
            rw [List.length_singleton] at hlength
            exact hpush (SpellsChar.plain hplain) hmore (by omega)
        | letter hletter =>
            simp only [List.length_cons, List.length_nil] at hlength
            exact hpush (SpellsChar.letter hletter) hmore (by omega)
        | @number digits n hnumber =>
            simp only [List.length_cons] at hlength
            cases hlow : isLowHalf n with
            | true =>
                refine Or.inr fun read rest => ?_
                simp only [List.cons_append, List.append_assoc]
                refine readTextFrom_fault ?_ read
                simp only [readEscape, if_true, readNumbered, readHex_append hnumber, hlow]
            | false =>
                cases hhigh : isHighHalf n with
                | false => exact hpush (SpellsChar.number hnumber hlow hhigh) hmore (by omega)
                | true =>
                    rcases readEscape_high hnumber hhigh hmore with
                      hmalformed | ⟨digits', low, last, hnumber', hlow', hlast, rfl⟩
                    · refine Or.inr fun read rest => ?_
                      simp only [List.cons_append, List.append_assoc]
                      exact readTextFrom_fault (hmalformed rest) read
                    · simp only [List.length_cons, List.length_append] at hlength
                      have hboth := hpush (SpellsChar.halves hnumber hhigh hnumber' hlow') hlast
                        (by omega)
                      simpa only [List.cons_append, List.append_assoc] using hboth

theorem skipEscape_append {piece : List Char} (h : IsPiece ('\\' :: piece)) (rest : List Char) :
    skipEscape (piece ++ rest) = .ok rest := by
  cases h with
  | plain hplain => exact absurd rfl hplain.not_backslash
  | letter hletter =>
      have hne := (readEscape_letter hletter []).1
      simp only [List.cons_append, List.nil_append, skipEscape, if_neg hne,
        escaped?_eq_some_iff.mpr hletter, Option.isSome_some, if_true]
  | number hnumber =>
      simp only [List.cons_append, skipEscape, if_true, readHex_append hnumber]

theorem exists_isPiece_of_skipEscape {text rest : List Char} (h : skipEscape text = .ok rest) :
    ∃ piece, IsPiece ('\\' :: piece) ∧ text = piece ++ rest := by
  cases text with
  | nil => cases h
  | cons letter tail =>
      rw [skipEscape] at h
      split at h
      next hu =>
        split at h
        · cases h
        next hread =>
          rcases exists_isHex_of_readHex hread with ⟨digits, hdigits, rfl⟩
          rw [← Except.ok.inj h, hu]
          exact ⟨'u' :: digits, IsPiece.number hdigits, rfl⟩
      · split at h
        next hescaped =>
          rcases Option.isSome_iff_exists.mp hescaped with ⟨c, hc⟩
          rw [← Except.ok.inj h]
          exact ⟨[letter], IsPiece.letter (escaped?_eq_some_iff.mp hc), rfl⟩
        · cases h

theorem skipText_plain {c : Char} (h : Plain c) (rest : List Char) :
    skipText (c :: rest) = skipText rest := by
  rw [skipText, if_neg h.not_quote, if_neg h.not_backslash, if_neg (Nat.not_lt.mpr h.not_control)]

theorem skipText_escape {text after : List Char} (h : skipEscape text = .ok after) :
    skipText ('\\' :: text) = skipText after := by
  rw [skipText, if_neg (by decide), if_pos rfl]
  split
  next hfault => cases h.symm.trans hfault
  next hread => rw [Except.ok.inj (h.symm.trans hread)]

/-- Any content is skipped up to the quote behind it. -/
theorem skipText_append {content : List Char} (h : IsContent content) (rest : List Char) :
    skipText (content ++ '"' :: rest) = .ok rest := by
  induction h with
  | nil => rw [List.nil_append, skipText, if_pos rfl]
  | cons hpiece _ ih =>
      rw [List.append_assoc, ← ih]
      cases hpiece with
      | plain hplain => exact skipText_plain hplain _
      | letter hletter => exact skipText_escape (skipEscape_append (IsPiece.letter hletter) _)
      | number hnumber => exact skipText_escape (skipEscape_append (IsPiece.number hnumber) _)

/-- What is skipped as a string is content. -/
theorem exists_isContent_of_skipText {text rest : List Char} (h : skipText text = .ok rest) :
    ∃ content, IsContent content ∧ text = content ++ '"' :: rest := by
  fun_induction skipText text with
  | case1 | case3 | case5 => cases h
  | case2 tail =>
      rw [Except.ok.inj h]
      exact ⟨[], IsContent.nil, rfl⟩
  | case4 tail after hread _ ih =>
      rcases exists_isPiece_of_skipEscape hread with ⟨piece, hpiece, rfl⟩
      rcases ih h with ⟨content, hcontent, rfl⟩
      refine ⟨_, IsContent.cons hpiece hcontent, ?_⟩
      rw [List.append_assoc]
      rfl
  | case6 c tail hquote hslash hcontrol ih =>
      rcases ih h with ⟨content, hcontent, rfl⟩
      have hplain : Plain c := ⟨hquote, hslash, Nat.le_of_not_lt hcontrol⟩
      exact ⟨_, IsContent.cons (IsPiece.plain hplain) hcontent, rfl⟩

end TreeQuery.Json
