set_option autoImplicit false

/-!
# Blank characters

The characters that count as white space at the two ends of a path, of an import reference and of a
compiler message: every character with the Unicode property `White_Space`, and the four information
separators U+001C to U+001F.  `trim` removes them from both ends, and what it keeps begins and ends
with a character that is not blank.
-/

namespace SheetBuild.Text

/-- The characters of the Unicode property `White_Space`. -/
def isWhiteSpace (c : Char) : Bool :=
  let n := c.toNat
  (9 ≤ n && n ≤ 13) || n == 32 || n == 0x85 || n == 0xA0 || n == 0x1680
    || (0x2000 ≤ n && n ≤ 0x200A) || n == 0x2028 || n == 0x2029 || n == 0x202F
    || n == 0x205F || n == 0x3000

/-- White space, or one of the four information separators. -/
def isBlank (c : Char) : Bool :=
  isWhiteSpace c || (0x1C ≤ c.toNat && c.toNat ≤ 0x1F)

/-- Removes what satisfies `p` from the end of a list. -/
def dropEndWhile {α : Type} (p : α → Bool) (cs : List α) : List α :=
  (cs.reverse.dropWhile p).reverse

/-- Removes what satisfies `p` from both ends of a list. -/
def trimWhile {α : Type} (p : α → Bool) (cs : List α) : List α :=
  dropEndWhile p (cs.dropWhile p)

/-- Removes blank characters from both ends of a list. -/
def trim (cs : List Char) : List Char := trimWhile isBlank cs

@[simp] theorem trim_nil : trim [] = [] := rfl

theorem dropEndWhile_sublist (p : Char → Bool) (cs : List Char) :
    (dropEndWhile p cs).Sublist cs := by
  have h : (cs.reverse.dropWhile p).Sublist cs.reverse := List.dropWhile_sublist p
  simpa [dropEndWhile] using h.reverse

/-- Trimming only removes characters. -/
theorem trim_sublist (cs : List Char) : (trim cs).Sublist cs :=
  (dropEndWhile_sublist isBlank _).trans (List.dropWhile_sublist isBlank)

end SheetBuild.Text
