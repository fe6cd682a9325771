import SheetBuild.Text.Blank
set_option autoImplicit false

/-!
# Cursors

A place in a text: what stands before it (the nearest character first) and what comes after it.
Line, column and indentation are read off the part before, so they cannot fall out of step with the
place.  `Reaches` says that one cursor comes to another by moving forward in the same text.
-/

namespace SheetBuild.Import

/-- A place in a text. -/
structure Cursor where
  /-- the characters before the place, the nearest first -/
  past : List Char
  /-- the characters after the place -/
  rest : List Char
  deriving DecidableEq, Repr

namespace Cursor

/-- The front of a text. -/
def start (source : List Char) : Cursor := ⟨[], source⟩

/-- The text that the cursor stands in. -/
def source (c : Cursor) : List Char := c.past.reverse ++ c.rest

/-- The part of the line before the cursor, reversed. -/
def lineFront (c : Cursor) : List Char := c.past.takeWhile (· ≠ '\n')

/-- The number of the line, from 1. -/
def line (c : Cursor) : Nat := 1 + c.past.count '\n'

/-- The number of the column, from 1. -/
def column (c : Cursor) : Nat := 1 + c.lineFront.length

/-- A space or a tab. -/
def isIndent (ch : Char) : Bool := ch = ' ' || ch = '\t'

/-- The width of the indentation, where nothing else stands before the cursor on its line. -/
def indent? (c : Cursor) : Option Nat :=
  if c.lineFront.all isIndent then some c.lineFront.length else none

/-- Moves over the characters of `ms`, which `rest` comes after. -/
def moveOver (ms rest : List Char) (c : Cursor) : Cursor := ⟨ms.reverse ++ c.past, rest⟩

/-- Moves over one character, where there is one. -/
def step (c : Cursor) : Cursor :=
  match c.rest with
  | [] => c
  | ch :: r => ⟨ch :: c.past, r⟩

/-- Moves over the characters that satisfy `p`, up to the first that does not. -/
def skipWhile (p : Char → Bool) (c : Cursor) : Cursor :=
  c.moveOver (c.rest.takeWhile p) (c.rest.dropWhile p)

/-- The second cursor stands at or after the first in the same text. -/
def Reaches (c d : Cursor) : Prop :=
  ∃ ms, c.rest = ms ++ d.rest ∧ d.past = ms.reverse ++ c.past

theorem Reaches.refl (c : Cursor) : c.Reaches c := ⟨[], by simp, by simp⟩

theorem Reaches.trans {c d e : Cursor} (h : c.Reaches d) (h' : d.Reaches e) : c.Reaches e := by
  obtain ⟨ms, hr, hp⟩ := h
  obtain ⟨ns, hr', hp'⟩ := h'
  exact ⟨ms ++ ns, by simp [hr, hr'], by simp [hp, hp']⟩

/-- Moving forward stays in the text. -/
theorem Reaches.source_eq {c d : Cursor} (h : c.Reaches d) : d.source = c.source := by
  obtain ⟨ms, hr, hp⟩ := h
  simp [source, hr, hp]

/-- Moving forward leaves no more than there was. -/
theorem Reaches.length_le {c d : Cursor} (h : c.Reaches d) : d.rest.length ≤ c.rest.length := by
  obtain ⟨ms, hr, -⟩ := h
  simp [hr]

theorem reaches_moveOver {c : Cursor} {ms rest : List Char} (h : c.rest = ms ++ rest) :
    c.Reaches (c.moveOver ms rest) := ⟨ms, h, rfl⟩

theorem reaches_step (c : Cursor) : c.Reaches c.step := by
  unfold step
  split
  · exact .refl c
  · rename_i ch r h
    exact ⟨[ch], by simp [h], by simp⟩

theorem reaches_cons {past r : List Char} (ch : Char) :
    Reaches ⟨past, ch :: r⟩ ⟨ch :: past, r⟩ := ⟨[ch], by simp, by simp⟩

theorem reaches_of_rest_eq {c : Cursor} {ch : Char} {r : List Char} (h : c.rest = ch :: r) :
    c.Reaches ⟨ch :: c.past, r⟩ := ⟨[ch], by simp [h], by simp⟩

theorem reaches_skipWhile (p : Char → Bool) (c : Cursor) : c.Reaches (c.skipWhile p) :=
  reaches_moveOver List.takeWhile_append_dropWhile.symm

/-- A step over a character leaves one less. -/
theorem length_step_lt {c : Cursor} (h : c.rest ≠ []) : c.step.rest.length < c.rest.length := by
  unfold step
  split
  · contradiction
  · rename_i hr
    simp [hr]

end Cursor

end SheetBuild.Import
