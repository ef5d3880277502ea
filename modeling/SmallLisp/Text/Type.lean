import SmallLisp.Text.Utf8

/-!
# Types of texts

A text is a string of characters, or any bytes.  What is read from bytes has strings for its texts,
since every byte that spells no character is replaced.  A value that was made in another way may
hold bytes that spell none.
-/

namespace SmallLisp

/-- The types of texts. -/
class TextType (τ : Type) extends Append τ where
  /-- The text of a string. -/
  ofString : String → τ
  /-- The characters that are read from a text. -/
  chars : τ → List Char

namespace TextType

/-- Texts as lists of characters. -/
instance : TextType String where
  ofString s := s
  chars := String.toList

/-- Texts as bytes. -/
instance : TextType (List UInt8) where
  ofString := Text.bytesOf
  chars := Text.decodeAll

@[simp]
theorem ofString_string (s : String) : (ofString s : String) = s := rfl

@[simp]
theorem chars_string (s : String) : chars s = s.toList := rfl

end TextType

/-- Texts one after the other, one space between neighbours. -/
def Text.spaced {τ : Type} [TextType τ] : List τ → τ
  | [] => TextType.ofString ""
  | [s] => s
  | s :: t :: rest => s ++ TextType.ofString " " ++ spaced (t :: rest)

end SmallLisp
