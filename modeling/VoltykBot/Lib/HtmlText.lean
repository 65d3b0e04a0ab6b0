import VoltykBot.Lib.Scanner

/-!
This module contains the escaping of HTML texts as in Python's `html`.
-/

namespace HtmlText

def escapeChar (c : Char) : List Char :=
  match c with
  | '&' => "&amp;".toList
  | '<' => "&lt;".toList
  | '>' => "&gt;".toList
  | '"' => "&quot;".toList
  | '\'' => "&#x27;".toList
  | c => [c]

def escape (text : List Char) : List Char := text.flatMap escapeChar

/--
A table of named references (`html5`). Which other names it has does not matter here.
-/
structure NamedReferences where
  lookup : List Char → Option (List Char)
  amp : lookup "amp;".toList = some ['&']
  lt : lookup "lt;".toList = some ['<']
  gt : lookup "gt;".toList = some ['>']
  quot : lookup "quot;".toList = some ['"']

def NamedReferences.predefined : NamedReferences where
  lookup name :=
    [("amp;".toList, '&'), ("lt;".toList, '<'), ("gt;".toList, '>'), ("quot;".toList, '"'),
      ("apos;".toList, '\''), ("amp".toList, '&'), ("lt".toList, '<'), ("gt".toList, '>'),
      ("quot".toList, '"')].lookup name |>.map fun c => [c]
  amp := by decide
  lt := by decide
  gt := by decide
  quot := by decide

/--
What a browser shows for numbers that are no characters (`_invalid_charrefs`).
-/
def invalidCharrefs : List (Nat × Nat) := [
  (0x00, 0xfffd), (0x0d, 0x0d), (0x80, 0x20ac), (0x81, 0x81), (0x82, 0x201a), (0x83, 0x0192), (0x84, 0x201e),
  (0x85, 0x2026), (0x86, 0x2020), (0x87, 0x2021), (0x88, 0x02c6), (0x89, 0x2030), (0x8a, 0x0160),
  (0x8b, 0x2039), (0x8c, 0x0152), (0x8d, 0x8d), (0x8e, 0x017d), (0x8f, 0x8f), (0x90, 0x90), (0x91, 0x2018),
  (0x92, 0x2019), (0x93, 0x201c), (0x94, 0x201d), (0x95, 0x2022), (0x96, 0x2013), (0x97, 0x2014),
  (0x98, 0x02dc), (0x99, 0x2122), (0x9a, 0x0161), (0x9b, 0x203a), (0x9c, 0x0153), (0x9d, 0x9d),
  (0x9e, 0x017e), (0x9f, 0x0178)]

def isInvalidCodepoint (n : Nat) : Bool :=
  1 ≤ n && n ≤ 8 || n == 0xb || 0xe ≤ n && n ≤ 0x1f || 0x7f ≤ n && n ≤ 0x9f || 0xfdd0 ≤ n && n ≤ 0xfdef ||
    0xfffe ≤ n % 0x10000 && n ≤ 0x10ffff

def isHexDigit (c : Char) : Bool := c.isDigit || 'a' ≤ c && c ≤ 'f' || 'A' ≤ c && c ≤ 'F'

def hexValue (c : Char) : Nat := if c.isDigit then c.toNat - 0x30 else c.toUpper.toNat - 0x41 + 10

def number (base : Nat) (digits : List Char) : Nat := digits.foldl (fun n c => n * base + hexValue c) 0

def isNameChar (c : Char) : Bool := !(['\t', '\n', '\x0c', ' ', '<', '&', '#', ';'].contains c)

def optionalSemicolon (rest : List Char) : List Char := if rest.head? = some ';' then [';'] else []

/--
The group of `_charref` behind an ampersand.
-/
def charref (rest : List Char) : Option (List Char) :=
  match rest with
  | '#' :: rest =>
    let digits := rest.takeWhile (·.isDigit)
    let hexDigits := rest.tail.takeWhile isHexDigit
    if digits ≠ [] then
      some ('#' :: digits ++ optionalSemicolon (rest.drop digits.length))
    else if (rest.head? = some 'x' ∨ rest.head? = some 'X') ∧ hexDigits ≠ [] then
      some ('#' :: rest.take 1 ++ hexDigits ++ optionalSemicolon (rest.tail.drop hexDigits.length))
    else
      none
  | rest =>
    let name := (rest.takeWhile isNameChar).take 32
    if name ≠ [] then some (name ++ optionalSemicolon (rest.drop name.length)) else none

def ofNumber (n : Nat) : List Char :=
  match invalidCharrefs.lookup n with
  | some c => [Char.ofNat c]
  | none =>
    if 0xd800 ≤ n ∧ n ≤ 0xdfff ∨ 0x10ffff < n then
      ['\ufffd']
    else if isInvalidCodepoint n then
      []
    else
      [Char.ofNat n]

variable (html5 : NamedReferences)

/--
The longest name that `text` begins with, of at most `n` characters and at least two.
-/
def longestName (text : List Char) : Nat → Option (List Char)
  | 0 => none
  | 1 => none
  | n + 1 =>
    match html5.lookup (text.take (n + 1)) with
    | some value => some (value ++ text.drop (n + 1))
    | none => longestName text n

/--
`_replace_charref` of the group.
-/
def replaceCharref (text : List Char) : List Char :=
  match text with
  | '#' :: rest =>
    let digits := rest.filter (· ≠ ';')
    if rest.head? = some 'x' ∨ rest.head? = some 'X' then
      ofNumber (number 16 digits.tail)
    else
      ofNumber (number 10 digits)
  | text =>
    match html5.lookup text with
    | some value => value
    | none => (longestName html5 text (text.length - 1)).getD ('&' :: text)

/--
What `_charref.sub` puts for the text from a character on, and how far it has read.
-/
def cutCharref (c : Char) (rest : List Char) : List Char × Nat :=
  match if c = '&' then charref rest else none with
  | some group => (replaceCharref html5 group, group.length)
  | none => ([c], 0)

def unescape (text : List Char) : List Char := (Scanner.pieces (cutCharref html5) text).flatten

variable {html5}

theorem unescape_of_charref {name : List Char} (hname : charref name = some name)
    : unescape html5 ('&' :: name) = replaceCharref html5 name := by
  have hcut : cutCharref html5 '&' (name ++ []) = (replaceCharref html5 name, name.length) := by
    unfold cutCharref
    rw [List.append_nil, if_pos rfl, hname]
  have hpieces := Scanner.pieces_cons hcut
  rw [List.append_nil] at hpieces
  unfold unescape
  rw [hpieces, Scanner.pieces_nil, List.flatten_cons, List.flatten_nil, List.append_nil]

theorem replaceCharref_of_lookup {name value : List Char} (hhash : name.head? ≠ some '#')
    (hlookup : html5.lookup name = some value) : replaceCharref html5 name = value := by
  unfold replaceCharref
  split
  . exact absurd rfl hhash
  . rw [hlookup]

/--
A reference that `escape` writes is read as the character it stands for.
-/
theorem unescape_escapeChar {c : Char} {name : List Char} (h : escapeChar c = '&' :: name)
    (hne : name ≠ []) : unescape html5 ('&' :: name) = [c] := by
  unfold escapeChar at h
  split at h
  . cases h
    rw [unescape_of_charref (by decide)]
    exact replaceCharref_of_lookup (by decide) html5.amp
  . cases h
    rw [unescape_of_charref (by decide)]
    exact replaceCharref_of_lookup (by decide) html5.lt
  . cases h
    rw [unescape_of_charref (by decide)]
    exact replaceCharref_of_lookup (by decide) html5.gt
  . cases h
    rw [unescape_of_charref (by decide)]
    exact replaceCharref_of_lookup (by decide) html5.quot
  . cases h
    rw [unescape_of_charref (by decide)]
    rfl
  . cases h
    exact absurd rfl hne

theorem escapeChar_cases (c : Char)
    : escapeChar c = [c] ∧ c ≠ '<' ∧ c ≠ '&'
        ∨
      ∃ name, escapeChar c = '&' :: (name ++ [';']) ∧ ';' ∉ name ∧ name.length + 1 < 8 := by
  unfold escapeChar
  split
  . exact Or.inr ⟨"amp".toList, by decide⟩
  . exact Or.inr ⟨"lt".toList, by decide⟩
  . exact Or.inr ⟨"gt".toList, by decide⟩
  . exact Or.inr ⟨"quot".toList, by decide⟩
  . exact Or.inr ⟨"#x27".toList, by decide⟩
  . next hamp hlt _ _ _ => exact Or.inl ⟨rfl, hlt, hamp⟩

end HtmlText
