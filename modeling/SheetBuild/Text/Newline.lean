set_option autoImplicit false

/-!
# Line ends

Text files are read with every line end as a single line feed.
-/

namespace SheetBuild.Text

/-- Turns a carriage return, with or without a line feed after it, into a line feed. -/
def unifyNewlines : List Char → List Char
  | '\r' :: '\n' :: r => '\n' :: unifyNewlines r
  | '\r' :: r => '\n' :: unifyNewlines r
  | c :: r => c :: unifyNewlines r
  | [] => []

/-- A text without carriage returns is left alone. -/
theorem unifyNewlines_of_not_mem {cs : List Char} (h : '\r' ∉ cs) : unifyNewlines cs = cs := by
  fun_induction unifyNewlines cs with
  | case1 => simp at h
  | case2 => simp at h
  | case3 c r _ _ ih =>
    simp only [List.mem_cons, not_or] at h
    rw [ih h.2]
  | case4 => rfl

end SheetBuild.Text
