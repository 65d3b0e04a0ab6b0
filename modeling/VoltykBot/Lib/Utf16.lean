import Mathlib.Algebra.Ring.Int.Defs
import Mathlib.Algebra.Ring.Nat

/-!
This module contains the UTF-16 form of a text, in whose code units positions inside of the text are counted.
-/

namespace Utf16

def units (c : Char) : List Nat :=
  if c.toNat < 0x10000 then
    [c.toNat]
  else
    [0xd800 + (c.toNat - 0x10000) / 0x400, 0xdc00 + (c.toNat - 0x10000) % 0x400]

def encode (text : List Char) : List Nat := text.flatMap units

def len (text : List Char) : Int := (encode text).length

def slice (text : List Char) (offset length : Int) : List Nat :=
  ((encode text).drop offset.toNat).take length.toNat

@[simp]
theorem encode_append (before after : List Char) : encode (before ++ after) = encode before ++ encode after := by
  unfold encode
  rw [List.flatMap_append]

@[simp]
theorem len_nil : len [] = 0 := rfl

@[simp]
theorem len_append (before after : List Char) : len (before ++ after) = len before + len after := by
  unfold len
  rw [encode_append, List.length_append, Int.natCast_add]

theorem len_nonneg (text : List Char) : 0 ≤ len text := Int.natCast_nonneg _

theorem slice_middle (before text after : List Char)
    : slice (before ++ text ++ after) (len before) (len text) = encode text := by
  unfold slice len
  rw [Int.toNat_natCast, Int.toNat_natCast, encode_append, encode_append, List.append_assoc,
    List.drop_left, List.take_left]

end Utf16
