import SheetBuild.Text.Loose
set_option autoImplicit false

/-!
# Glob patterns

A pattern matches a whole text.  `*` stands for any text, slashes and line feeds included, `?` for
one character, and a set in brackets for one of its members, or with `!` in front for one of the
other characters.  Everything else stands for itself, also a bracket that is not closed.

In a set a hyphen between two characters makes a range.  A range that runs backwards holds nothing and
is taken out first, so the `!` that negates a set may also be one that comes to its front by that.

A pattern may hold halves of surrogate pairs.  No text that is matched has them, but a half can be an
end of a range, which goes by the numbers of code points.
-/

namespace SheetBuild.Project.Glob

open SheetBuild.Text (Loose Point)

/-- A piece of a pattern. -/
inductive Piece where
  /-- any text -/
  | many
  /-- any one character -/
  | one
  | literal (c : Point)
  /-- one character inside the ranges, or outside all of them -/
  | member (negated : Bool) (ranges : List (Point × Point))
  deriving DecidableEq, Repr

/-! ## Sets -/

/-- Cuts a text at its first hyphen, of which the first `skip` characters are none. -/
def cutHyphen (skip : Nat) (cs : List Point) : List Point × Option (List Point) :=
  let front := (cs.drop skip).takeWhile (· ≠ .char '-')
  match (cs.drop skip).dropWhile (· ≠ .char '-') with
  | [] => (cs, none)
  | _ :: rest => (cs.take skip ++ front, some rest)

theorem length_cutHyphen_lt {skip : Nat} {cs front rest : List Point}
    (h : cutHyphen skip cs = (front, some rest)) : rest.length < cs.length := by
  simp only [cutHyphen] at h
  split at h
  · simp at h
  · rename_i c r hd
    simp only [Prod.mk.injEq, Option.some.injEq] at h
    have hl := (List.dropWhile_sublist (· ≠ .char '-') (l := cs.drop skip)).length_le
    rw [hd] at hl
    simp only [List.length_cons, List.length_drop] at hl
    rw [← h.2]
    omega

/-- The texts between the hyphens that make ranges.  A hyphen at either end of the set, or directly
behind the end of a range, is a member. -/
def chunks (skip : Nat) (cs : List Point) : List (List Point) :=
  match _h : cutHyphen skip cs with
  | (_, none) => [cs]
  | (front, some []) => [front ++ [.char '-']]
  | (front, some (c :: rest)) => front :: chunks 2 (c :: rest)
termination_by cs.length
decreasing_by exact length_cutHyphen_lt _h

/-- Takes out the ranges that run backwards, with both their ends. -/
def dropBackward : List (List Point) → List (List Point)
  | [] => []
  | c :: rest =>
    match dropBackward rest with
    | [] => [c]
    | d :: ds =>
      match c.getLast?, d.head? with
      | some a, some b => if b.code < a.code then (c.dropLast ++ d.drop 1) :: ds else c :: d :: ds
      | _, _ => c :: d :: ds

/-- The range that holds one code point. -/
def single (c : Point) : Point × Point := (c, c)

/-- The range from the end of one text to the start of the next. -/
def bridge (c d : List Point) : List (Point × Point) :=
  match c.getLast?, d.head? with
  | some a, some b => [(a, b)]
  | _, _ => []

/-- The ranges of a set: each hyphen lies between the last character of one text and the first of the
next, and the other characters stand for themselves. -/
def rangesOf : List (List Point) → List (Point × Point)
  | [] => []
  | [c] => c.map single
  | c :: d :: ds => c.dropLast.map single ++ bridge c d ++ rangesOf (d.drop 1 :: ds)
termination_by cs => cs.length

/-- The piece for the texts between the hyphens of a set.  A hyphen right behind the mark of a negated
set is a member. -/
def memberOfChunks : List (List Point) → Piece
  | [.char '!'] :: d :: ds => .member true (single (.char '-') :: rangesOf (d :: ds))
  | (.char '!' :: c) :: rest => .member true (rangesOf (c :: rest))
  | kept => .member false (rangesOf kept)

/-- The piece for the text inside brackets. -/
def memberOf (cs : List Point) : Piece :=
  memberOfChunks (dropBackward (chunks (if cs.head? = some (.char '!') then 2 else 1) cs))

/-- The text inside brackets that have just been opened, and what follows them.  A closing bracket
directly behind the opening is a member. -/
def cutSet? (cs : List Point) : Option (List Point × List Point) :=
  let mark := cs.takeWhile (· = .char '!') |>.take 1
  let bracket := (cs.drop mark.length).takeWhile (· = .char ']') |>.take 1
  let inner := cs.drop (mark.length + bracket.length)
  match inner.dropWhile (· ≠ .char ']') with
  | [] => none
  | _ :: rest => some (mark ++ bracket ++ inner.takeWhile (· ≠ .char ']'), rest)

theorem length_cutSet?_lt {cs inner rest : List Point} (h : cutSet? cs = some (inner, rest)) :
    rest.length < cs.length := by
  simp only [cutSet?] at h
  split at h
  · simp at h
  · rename_i c r hd
    simp only [Option.some.injEq, Prod.mk.injEq] at h
    have hl := congrArg List.length hd
    have hs := (List.dropWhile_sublist (· ≠ .char ']')
      (l := cs.drop ((cs.takeWhile (· = .char '!') |>.take 1).length
        + ((cs.drop (cs.takeWhile (· = .char '!') |>.take 1).length).takeWhile (· = .char ']')
          |>.take 1).length))).length_le
    rw [hl] at hs
    simp only [List.length_cons, List.length_drop] at hs
    rw [← h.2]
    omega

/-! ## Patterns -/

/-- The pieces of a pattern. -/
def pieces (cs : List Point) : List Piece :=
  match cs with
  | [] => []
  | .char '*' :: r => .many :: pieces r
  | .char '?' :: r => .one :: pieces r
  | c :: r =>
    if c = .char '[' then
      match _h : cutSet? r with
      | some (inner, rest) => memberOf inner :: pieces rest
      | none => .literal c :: pieces r
    else .literal c :: pieces r
termination_by cs.length
decreasing_by
  all_goals simp only [List.length_cons]
  all_goals try omega
  have := length_cutSet?_lt _h
  omega

/-- Whether a piece that stands for one character stands for this one. -/
def Piece.takes : Piece → Char → Bool
  | .many, _ => false
  | .one, _ => true
  | .literal d, c => d = .char c
  | .member negated ranges, c => (ranges.any fun r => r.1.code ≤ c.toNat && c.toNat ≤ r.2.code) != negated

/-- For each tail of a list, whether a flag is set somewhere in it. -/
def anyFrom : List Bool → List Bool
  | [] => []
  | b :: bs => (b || (anyFrom bs).headD false) :: anyFrom bs

/-- For each tail of a text, the longest first, whether the pieces match it. -/
def matchTails : List Piece → List Char → List Bool
  | [], cs => List.replicate cs.length false ++ [true]
  | .many :: ps, cs => anyFrom (matchTails ps cs)
  | p :: ps, cs => List.zipWith (fun c b => p.takes c && b) cs ((matchTails ps cs).drop 1) ++ [false]

/-- Whether a pattern matches a text. -/
def isMatch (pattern : Loose) (text : String) : Bool :=
  (matchTails (pieces pattern.points) text.toList).headD false

/-- Whether one of several patterns matches a text. -/
def isAnyMatch (patterns : List Loose) (text : String) : Bool := patterns.any (isMatch · text)

end SheetBuild.Project.Glob
