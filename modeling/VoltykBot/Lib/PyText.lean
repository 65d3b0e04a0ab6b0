import Mathlib.Algebra.Ring.Int.Defs
import Mathlib.Algebra.Ring.Nat
import Mathlib.Data.List.Induction
import Mathlib.Data.List.TakeWhile

/-!
This module contains what Python reads in a text: white space, digits of any script, and the numbers that
digits stand for.
-/

namespace PyText

def inRanges (ranges : List (Nat × Nat)) (c : Char) : Bool :=
  ranges.any fun range => range.1 ≤ c.toNat ∧ c.toNat ≤ range.2

def spaceRanges : List (Nat × Nat) := [
  (0x9, 0xd), (0x1c, 0x20), (0x85, 0x85), (0xa0, 0xa0), (0x1680, 0x1680), (0x2000, 0x200a),
  (0x2028, 0x2029), (0x202f, 0x202f), (0x205f, 0x205f), (0x3000, 0x3000)]

def isSpace (c : Char) : Bool := inRanges spaceRanges c

def strip (text : List Char) : List Char :=
  ((text.dropWhile isSpace).reverse.dropWhile isSpace).reverse

/--
`split()[0]`; `none` where it raises.
-/
def firstWord (text : List Char) : Option (List Char) :=
  match text.dropWhile isSpace with
  | [] => none
  | word => some (word.takeWhile (!isSpace ·))

/--
`lower`, as far as texts in ASCII can be told apart by it: of all other characters only the Kelvin sign becomes a
letter of ASCII alone, and the others are left as they are.
-/
def lowerChar (c : Char) : Char := if c = '\u212a' then 'k' else c.toLower

def lower (text : List Char) : List Char := text.map lowerChar

def isLetter (letter c : Char) : Bool :=
  c.toLower = letter ||
    [('i', '\u0130'), ('i', '\u0131'), ('k', '\u212a'), ('s', '\u017f')].contains (letter, c)

def matchIgnoringCase (pattern text : List Char) : Option (List Char) :=
  match pattern, text with
  | [], text => some text
  | letter :: pattern, c :: text => if isLetter letter c then matchIgnoringCase pattern text else none
  | _ :: _, [] => none

/--
The zeros of the decimal digits (category Nd); each is followed by its nine other digits.
-/
def decimalZeros : List Nat := [
  0x30, 0x660, 0x6f0, 0x7c0, 0x966, 0x9e6, 0xa66, 0xae6, 0xb66, 0xbe6, 0xc66, 0xce6, 0xd66, 0xde6, 0xe50,
  0xed0, 0xf20, 0x1040, 0x1090, 0x17e0, 0x1810, 0x1946, 0x19d0, 0x1a80, 0x1a90, 0x1b50, 0x1bb0, 0x1c40,
  0x1c50, 0xa620, 0xa8d0, 0xa900, 0xa9d0, 0xa9f0, 0xaa50, 0xabf0, 0xff10, 0x104a0, 0x10d30, 0x11066,
  0x110f0, 0x11136, 0x111d0, 0x112f0, 0x11450, 0x114d0, 0x11650, 0x116c0, 0x11730, 0x118e0, 0x11950,
  0x11c50, 0x11d50, 0x11da0, 0x11f50, 0x16a60, 0x16ac0, 0x16b50, 0x1d7ce, 0x1d7d8, 0x1d7e2, 0x1d7ec,
  0x1d7f6, 0x1e140, 0x1e2f0, 0x1e4f0, 0x1e950, 0x1fbf0]

/--
The digits that are not decimal, such as superscripts; `isdigit` accepts them, `int` does not.
-/
def otherDigitRanges : List (Nat × Nat) := [
  (0xb2, 0xb3), (0xb9, 0xb9), (0x1369, 0x1371), (0x19da, 0x19da), (0x2070, 0x2070), (0x2074, 0x2079),
  (0x2080, 0x2089), (0x2460, 0x2468), (0x2474, 0x247c), (0x2488, 0x2490), (0x24ea, 0x24ea),
  (0x24f5, 0x24fd), (0x24ff, 0x24ff), (0x2776, 0x277e), (0x2780, 0x2788), (0x278a, 0x2792),
  (0x10a40, 0x10a43), (0x10e60, 0x10e68), (0x11052, 0x1105a), (0x1f100, 0x1f10a)]

def decimal (c : Char) : Option Nat :=
  (decimalZeros.find? fun start => start ≤ c.toNat ∧ c.toNat < start + 10).map fun start =>
    c.toNat - start

def isDecimal (c : Char) : Bool := (decimal c).isSome

def isDigit (c : Char) : Bool := isDecimal c || inRanges otherDigitRanges c

def value (digits : List Char) : Nat :=
  digits.foldl (fun n c => n * 10 + (decimal c).getD 0) 0

def maxStrDigits : Nat := 4300

/--
`int` of a text in which all characters are digits; `none` where it raises.
-/
def int (digits : List Char) : Option Nat :=
  if digits ≠ [] ∧ digits.all isDecimal ∧ digits.length ≤ maxStrDigits then some (value digits) else none

/--
`int` of digits with underscores between them.
-/
def groupedInt (digits : List Char) : Option Nat :=
  if digits.head? ≠ some '_' ∧ digits.getLast? ≠ some '_' ∧ digits.IsChain fun a b => ¬ (a = '_' ∧ b = '_') then
    int (digits.filter (· ≠ '_'))
  else
    none

/--
`int` of any text; `none` where it raises.
-/
def parseInt (text : List Char) : Option Int :=
  match strip text with
  | '-' :: digits => (groupedInt digits).map fun n => -(n : Int)
  | '+' :: digits => (groupedInt digits).map fun n => (n : Int)
  | digits => (groupedInt digits).map fun n => (n : Int)

/--
`str` of a number; `none` where it raises.
-/
def str (n : Int) : Option (List Char) :=
  if (toString n.natAbs).length ≤ maxStrDigits then some (toString n).toList else none

theorem takeWhile_ne {c : Char} {text rest : List Char} (h : c ∉ text)
    : (text ++ c :: rest).takeWhile (· ≠ c) = text := by
  rw [List.takeWhile_append_of_pos]
  . rw [List.takeWhile_cons_of_neg (by simp), List.append_nil]
  . intro d hd
    exact decide_eq_true (ne_of_mem_of_not_mem hd h)

theorem dropWhile_ne {c : Char} {text rest : List Char} (h : c ∉ text)
    : (text ++ c :: rest).dropWhile (· ≠ c) = c :: rest := by
  rw [List.dropWhile_append_of_pos]
  . rw [List.dropWhile_cons_of_neg (by simp)]
  . intro d hd
    exact decide_eq_true (ne_of_mem_of_not_mem hd h)

theorem forall_dropWhile_iff {p : Char → Bool} {text : List Char}
    : (∀ c ∈ text.dropWhile p, p c = true) ↔ ∀ c ∈ text, p c = true := by
  constructor
  . intro h c hc
    rw [← List.takeWhile_append_dropWhile (p := p) (l := text), List.mem_append] at hc
    rcases hc with htake | hdrop
    . exact List.mem_takeWhile_imp htake
    . exact h c hdrop
  . exact fun h c hc => h c ((List.dropWhile_sublist p).mem hc)

theorem forall_strip_iff {text : List Char}
    : (∀ c ∈ strip text, isSpace c = true) ↔ ∀ c ∈ text, isSpace c = true := by
  unfold strip
  simp only [List.mem_reverse]
  rw [forall_dropWhile_iff]
  simp only [List.mem_reverse]
  rw [forall_dropWhile_iff]

theorem isSpace_of_ascii {c : Char} (h : 33 ≤ c.toNat ∧ c.toNat ≤ 126) : isSpace c = false := by
  unfold isSpace inRanges
  rw [List.any_eq_false]
  intro range hrange
  simp only [spaceRanges, List.mem_cons, List.not_mem_nil, or_false] at hrange
  rw [decide_eq_true_eq]
  rcases hrange with rfl | rfl | rfl | rfl | rfl | rfl | rfl | rfl | rfl | rfl <;> omega

theorem isSpace_lowerChar (c : Char) : isSpace (lowerChar c) = isSpace c := by
  unfold lowerChar
  split
  . next hkelvin =>
    rw [hkelvin]
    decide
  . unfold Char.toLower
    split
    . next hupper =>
      have hrange : 65 ≤ c.toNat ∧ c.toNat ≤ 90 := by
        simpa [UInt32.le_iff_toNat_le] using hupper
      have hspace : isSpace c = false := isSpace_of_ascii (by omega)
      rw [hspace]
      apply isSpace_of_ascii
      have hlower : (c.val + ('a'.val - 'A'.val)).toNat = c.toNat + 32 := by
        rw [UInt32.toNat_add]
        exact Nat.mod_eq_of_lt (Nat.lt_of_le_of_lt (Nat.add_le_add_right hrange.2 32) (by decide))
      dsimp only [Char.toNat] at hlower hrange ⊢
      omega
    . rfl

theorem forall_lower_iff {text : List Char}
    : (∀ c ∈ lower text, isSpace c = true) ↔ ∀ c ∈ text, isSpace c = true := by
  unfold lower
  rw [List.forall_mem_map]
  simp only [isSpace_lowerChar]

theorem firstWord_isSome_iff {text : List Char}
    : (firstWord text).isSome ↔ ¬ ∀ c ∈ text, isSpace c = true := by
  unfold firstWord
  rw [← List.dropWhile_eq_nil_iff]
  split
  . next hnil => exact iff_of_false Bool.false_ne_true (not_not_intro hnil)
  . next hne => exact iff_of_true rfl hne

theorem value_append (digits : List Char) (c : Char)
    : value (digits ++ [c]) = value digits * 10 + (decimal c).getD 0 := by
  unfold value
  rw [List.foldl_append]
  rfl

theorem decimal_of_isDigit {c : Char} (h : c.isDigit = true) : decimal c = some (c.toNat - 0x30) := by
  have hrange : 48 ≤ c.toNat ∧ c.toNat ≤ 57 := by
    simpa [Char.isDigit, UInt32.le_iff_toNat_le] using h
  unfold decimal decimalZeros
  rw [List.find?_cons_of_pos]
  . rfl
  . rw [decide_eq_true_eq]
    omega

theorem pow_le_value {c : Char} {digits : List Char} (hpos : 0 < (decimal c).getD 0)
    : 10 ^ digits.length ≤ value (c :: digits) := by
  induction digits using List.reverseRecOn with
  | nil =>
    have hone : value [c] = (decimal c).getD 0 := by
      unfold value
      simp
    rw [hone]
    exact hpos
  | append_singleton digits last ih =>
    rw [← List.cons_append, value_append, List.length_append, List.length_singleton, Nat.pow_succ]
    omega

end PyText
