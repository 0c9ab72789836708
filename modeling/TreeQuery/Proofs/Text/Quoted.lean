import Mathlib.Tactic.SplitIfs
import TreeQuery.Text.Quoted

/-!
# Quoted text read back

Quoting loses nothing: from what stands between the quotes the text can be read back, one
character at a time. The written forms have different lengths, so a reader has to know from
what it has seen where a form ends. A form that begins with a backslash is given by its
second character, and the form with a code point goes on up to the closing brace. The digits
of a number contain no brace, so the first one is the right one.

A quote never stands bare between the quotes. That is how a reader knows that the text is at
its end, whatever the text is.

## Main definitions

* `codeValue`: The number that hexadecimal digits stand for.
* `readPiece`: The first character of quoted text, and what stands behind its written form.

## Theorems

* `append_inj_of_run`: A run of characters can be told from what follows it.
* `codeValue_toDigits`: A number can be read back from its hexadecimal digits.
* `readPiece_escape`: A character can be read back from its written form.
* `quote_injective`: Different texts are quoted differently.
* `lineFeed_not_mem_quote`: Quoted text stands on one line.
-/

namespace TreeQuery.Text

/-- The value of a hexadecimal digit in lower case. -/
def digitValue (c : Char) : Nat :=
  if c.isDigit then c.toNat - '0'.toNat else c.toNat - 'a'.toNat + 10

/-- The number that hexadecimal digits stand for. -/
def codeValue (digits : List Char) : Nat :=
  digits.foldl (fun value c => 16 * value + digitValue c) 0

/-- The characters that have an escape of their own, each behind the letter of the escape. -/
def letters : List (Char × Char) :=
  [('0', '\x00'), ('t', '\t'), ('n', '\n'), ('r', '\r'), ('"', '"'), ('\\', '\\')]

/-- Read what follows a backslash. -/
def readEscaped : List Char → Option (Char × List Char)
  | [] => none
  | 'u' :: rest =>
    let inside := fun c => c != '\x7d'
    some (Char.ofNat (codeValue (rest.tail.takeWhile inside)), (rest.tail.dropWhile inside).tail)
  | letter :: rest => (letters.lookup letter).map fun c => (c, rest)

/-- The first character of a quoted text, and what stands behind it. There is none at the end. -/
def readPiece : List Char → Option (Char × List Char)
  | [] => none
  | c :: rest =>
    if c = '\\' then readEscaped rest
    else if c = '"' then none
    else some (c, rest)

section Runs

variable {p : Char → Bool} {run other rest more : List Char}

-- A run ends where something else begins.
theorem takeWhile_run (hrun : ∀ c ∈ run, p c = true) (hrest : rest.takeWhile p = []) :
    (run ++ rest).takeWhile p = run := by
  rw [List.takeWhile_append_of_pos hrun, hrest, List.append_nil]

/-- A run of characters can be told from what follows it. -/
theorem append_inj_of_run (hrun : ∀ c ∈ run, p c = true) (hother : ∀ c ∈ other, p c = true)
    (hrest : rest.takeWhile p = []) (hmore : more.takeWhile p = [])
    (h : run ++ rest = other ++ more) : run = other ∧ rest = more := by
  have hsame : run = other := by
    rw [← takeWhile_run hrun hrest, h, takeWhile_run hother hmore]
  rw [hsame] at h
  exact ⟨hsame, List.append_cancel_left h⟩

/-- So can what stands in front of the first mark from what follows it. -/
theorem append_cons_inj {mark : Char} (hrun : mark ∉ run) (hother : mark ∉ other)
    (h : run ++ mark :: rest = other ++ mark :: more) : run = other ∧ rest = more := by
  have hfree : ∀ text : List Char, mark ∉ text → ∀ c ∈ text, (c != mark) = true := by
    intro text htext c hc
    exact bne_iff_ne.mpr fun hmark => htext (hmark ▸ hc)
  have hstop : ∀ text : List Char, (mark :: text).takeWhile (· != mark) = [] := by
    intro text
    rw [List.takeWhile_cons_of_neg (by rw [bne_self_eq_false]; exact Bool.false_ne_true)]
  rcases append_inj_of_run (hfree run hrun) (hfree other hother) (hstop rest) (hstop more) h with
    ⟨hsame, hcons⟩
  exact ⟨hsame, (List.cons.inj hcons).2⟩

end Runs

-- The digits of a number are the last one and the digits of what is in front of it.
theorem toDigits_induction {P : List Char → Nat → Prop} (hdigit : ∀ d < 16, P [d.digitChar] d)
    (hstep : ∀ digits n d, d < 16 → P digits n → P (digits ++ [d.digitChar]) (16 * n + d))
    (n : Nat) : P (Nat.toDigits 16 n) n := by
  induction n using Nat.strongRecOn with
  | ind n ih =>
      rw [Nat.toDigits_eq_if (by decide)]
      by_cases hn : n < 16
      · rw [if_pos hn]
        exact hdigit n hn
      · rw [if_neg hn]
        have h := hstep _ _ (n % 16) (Nat.mod_lt n (by decide)) (ih (n / 16) (by omega))
        rwa [Nat.div_add_mod] at h

theorem digitValue_digitChar : ∀ d < 16, digitValue d.digitChar = d := by
  decide

/-- A number can be read back from its hexadecimal digits. -/
theorem codeValue_toDigits (n : Nat) : codeValue (Nat.toDigits 16 n) = n := by
  refine toDigits_induction (P := fun digits n => codeValue digits = n) ?_ ?_ n
  · intro d hd
    rw [codeValue, List.foldl_cons, List.foldl_nil, digitValue_digitChar d hd, Nat.mul_zero,
      Nat.zero_add]
  · intro digits n d hd ih
    rw [codeValue, List.foldl_append, List.foldl_cons, List.foldl_nil, digitValue_digitChar d hd,
      ← codeValue, ih]

-- What holds of the sixteen digits holds of the digits of every number.
theorem forall_mem_toDigits {Q : Char → Prop} (hdigit : ∀ d < 16, Q (Nat.digitChar d)) (n : Nat) :
    ∀ c ∈ Nat.toDigits 16 n, Q c := by
  refine toDigits_induction (P := fun digits _ => ∀ c ∈ digits, Q c) ?_ ?_ n
  · exact fun d hd => List.forall_mem_singleton.mpr (hdigit d hd)
  · exact fun digits n d hd ih =>
      List.forall_mem_append.mpr ⟨ih, List.forall_mem_singleton.mpr (hdigit d hd)⟩

/-- A character can be read back from its code point. -/
theorem readEscaped_codeDigits (c : Char) (rest : List Char) :
    readEscaped ('u' :: '\x7b' :: (codeDigits c ++ '\x7d' :: rest)) = some (c, rest) := by
  have hfree : ∀ d ∈ codeDigits c, (d != '\x7d') = true :=
    forall_mem_toDigits (by decide) c.toNat
  have hclosed : ∀ text : List Char, ('\x7d' :: text).takeWhile (· != '\x7d') = [] :=
    fun _ => rfl
  rw [readEscaped, List.tail_cons, takeWhile_run hfree (hclosed rest),
    List.dropWhile_append_of_pos hfree, codeDigits, codeValue_toDigits, Char.ofNat_toNat]
  rfl

/-- A character can be read back from its written form, whatever follows. -/
theorem readPiece_escape (c : Char) (rest : List Char) :
    readPiece (escape c ++ rest) = some (c, rest) := by
  rw [escape]
  split_ifs with hnull htab hfeed hreturn hquote hslash hcode
  · rw [hnull]
    rfl
  · rw [htab]
    rfl
  · rw [hfeed]
    rfl
  · rw [hreturn]
    rfl
  · rw [hquote]
    rfl
  · rw [hslash]
    rfl
  · rw [List.cons_append, List.cons_append, List.cons_append, List.append_assoc]
    exact readEscaped_codeDigits c rest
  · rw [List.singleton_append, readPiece, if_neg hslash, if_neg hquote]

-- The closing quote is not the beginning of a written form. The induction is on one of the
-- texts: its first character is read from both.
theorem flatMap_escape_injective {text other : List Char}
    (h : text.flatMap escape ++ ['"'] = other.flatMap escape ++ ['"']) : text = other := by
  induction text generalizing other with
  | nil =>
      cases other with
      | nil => rfl
      | cons d others =>
          have hread := congrArg readPiece h
          rw [List.flatMap_cons, List.append_assoc, readPiece_escape] at hread
          exact absurd hread.symm (Option.some_ne_none _)
  | cons c chars ih =>
      have hread := congrArg readPiece h
      rw [List.flatMap_cons, List.append_assoc, readPiece_escape] at hread
      cases other with
      | nil => exact absurd hread (Option.some_ne_none _)
      | cons d others =>
          rw [List.flatMap_cons, List.append_assoc, readPiece_escape, Option.some.injEq,
            Prod.mk.injEq] at hread
          rw [hread.1, ih hread.2]

/-- Different texts are quoted differently. -/
theorem quote_injective : Function.Injective quote := by
  intro text other h
  have hlists := congrArg String.toList h
  rw [quote, quote, String.toList_ofList, String.toList_ofList, List.cons.injEq] at hlists
  exact String.toList_inj.mp (flatMap_escape_injective hlists.2)

-- A line feed has an escape of its own, and no written form contains one.
theorem lineFeed_not_mem_escape (c : Char) : '\n' ∉ escape c := by
  have hdigits : '\n' ∉ codeDigits c := fun hmem =>
    forall_mem_toDigits (Q := (· ≠ '\n')) (by decide) c.toNat _ hmem rfl
  rw [escape]
  split_ifs with hnull htab hfeed
  all_goals try decide
  · simp only [List.mem_cons, List.mem_append, hdigits, List.not_mem_nil, or_false, false_or]
    decide
  · exact fun hmem => hfeed (List.mem_singleton.mp hmem).symm

/-- Quoted text stands on one line. -/
theorem lineFeed_not_mem_quote (text : String) : '\n' ∉ (quote text).toList := by
  rw [quote, String.toList_ofList, List.mem_cons, List.mem_append, List.mem_flatMap]
  rintro (hopen | ⟨c, _, hpiece⟩ | hclose)
  · exact absurd hopen (by decide)
  · exact lineFeed_not_mem_escape c hpiece
  · exact absurd hclose (by decide)

end TreeQuery.Text
