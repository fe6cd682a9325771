import SheetBuild.Text.Quoted
import SheetBuild.Text.Utf8
set_option autoImplicit false

/-!
# Loose texts

A text of a document may hold half of a surrogate pair on its own, which is no character.  A loose text
is whole, a string, or broken, a list of code points with such a half among them; no two of them have
the same code points.

Two halves that belong together are taken for one character where a JSON text is read from its escapes:
`joined` is what becomes of a text there, and one that is apart stays as it is (`joined_eq_self_iff`).
Where a text has to be a string, as on the way to a file, it is spelled as one that holds a null
character for each half, and can be read back (`unspelled_spelled`).
-/

namespace SheetBuild.Text

open SheetBuild.Text.Quoted (encodeChar hexDigits quoteFor)

/-! ## Code points -/

/-- A code point: a character, or half of a surrogate pair. -/
inductive Point where
  | char (c : Char)
  /-- one of the 1024 high halves, or one of the 1024 low ones -/
  | half (high : Bool) (n : Fin 1024)
  deriving DecidableEq, Repr

namespace Point

/-- The number of a code point. -/
def code : Point → Nat
  | .char c => c.toNat
  | .half true n => 0xD800 + n
  | .half false n => 0xDC00 + n

/-- The code point with a number. -/
def ofCode (n : Nat) : Point :=
  if 0xD800 ≤ n ∧ n < 0xE000 then .half (decide (n < 0xDC00)) (.ofNat 1024 n) else .char (.ofNat n)

/-- Whether a code point is no character. -/
def isHalf : Point → Bool
  | .char _ => false
  | .half .. => true

/-- The character that a code point is. -/
def char? : Point → Option Char
  | .char c => some c
  | .half .. => none

/-- The characters that code points are, unless a half is among them. -/
def chars? (ps : List Point) : Option (List Char) := ps.mapM char?

/-- The escape of a half. -/
def escape (p : Point) : List Char := ['\\', 'u'] ++ hexDigits 4 p.code

/-- The character that two halves make up. -/
def pair (high low : Fin 1024) : Char := .ofNat (0x10000 + high * 1024 + low)

/-- The mark that stands before a half, or before itself, where code points are spelled in characters. -/
def spellingMark : Char := '\x00'

/-- A code point in characters. -/
def spelled (p : Point) : List Char :=
  match p with
  | .char c => if c = spellingMark then [c, c] else [c]
  | .half .. => [spellingMark, .ofNat (p.code - 0xD700)]

/-- The code points that are spelled in characters. -/
def unspelled : List Char → List Point
  | [] => []
  | [c] => [.char c]
  | c :: d :: cs =>
    if c ≠ spellingMark then .char c :: unspelled (d :: cs)
    else (if d = spellingMark then .char d else .ofCode (d.toNat + 0xD700)) :: unspelled cs

/-- Code points with each high half joined to a low one right behind it. -/
def joined : List Point → List Point
  | .half true m :: .half false n :: ps => .char (pair m n) :: joined ps
  | p :: ps => p :: joined ps
  | [] => []

/-- Whether no high half stands right before a low one. -/
def areApart : List Point → Bool
  | .half true _ :: .half false _ :: _ => false
  | _ :: ps => areApart ps
  | [] => true

@[simp] theorem ofCode_toNat (c : Char) : ofCode c.toNat = .char c := by
  have hvalid : c.toNat < 0xD800 ∨ (0xDFFF < c.toNat ∧ c.toNat < 0x110000) := c.valid
  rw [ofCode, if_neg (by omega), Char.ofNat_toNat]

/-- A code point is the one with its number. -/
@[simp] theorem ofCode_code (p : Point) : ofCode p.code = p := by
  cases p with
  | char c => exact ofCode_toNat c
  | half high n =>
    have hn := n.isLt
    cases high with
    | true =>
      have hlow : (.ofNat 1024 (0xD800 + n) : Fin 1024) = n := Fin.ext (by simp [Fin.ofNat]; omega)
      rw [code, ofCode, if_pos (by omega), hlow, decide_eq_true (by omega)]
    | false =>
      have hlow : (.ofNat 1024 (0xDC00 + n) : Fin 1024) = n := Fin.ext (by simp [Fin.ofNat]; omega)
      rw [code, ofCode, if_pos (by omega), hlow, decide_eq_false (by omega)]

/-- Spelled code points are read back, whatever is spelled behind them. -/
theorem unspelled_append (ps : List Point) (cs : List Char) :
    unspelled (ps.flatMap spelled ++ cs) = ps ++ unspelled cs := by
  induction ps with
  | nil => rfl
  | cons p ps ih =>
    rw [List.flatMap_cons, List.append_assoc, List.cons_append, ← ih]
    generalize ps.flatMap spelled ++ cs = rest
    cases p with
    | char c =>
      simp only [spelled]
      split
      · rename_i hmark
        simp [unspelled, hmark]
      · rename_i hmark
        cases rest <;> simp [unspelled, hmark]
    | half high n =>
      have hn := n.isLt
      have hcode : 0xD800 ≤ (Point.half high n).code ∧ (Point.half high n).code < 0xE000 := by
        cases high <;> simp only [code] <;> omega
      have hchar : (Char.ofNat ((Point.half high n).code - 0xD700)).toNat
          = (Point.half high n).code - 0xD700 := by
        rw [Char.ofNat, dif_pos (.inl (by omega))]
        rfl
      have hmark : Char.ofNat ((Point.half high n).code - 0xD700) ≠ spellingMark := by
        intro h
        rw [h] at hchar
        have hzero : spellingMark.toNat = 0 := rfl
        omega
      have hback : (Point.half high n).code - 0xD700 + 0xD700 = (Point.half high n).code := by omega
      simp [spelled, unspelled, hmark, hchar, hback]

/-- Code points stay as they are where they are joined exactly if they are apart. -/
theorem joined_eq_self_iff {ps : List Point} : joined ps = ps ↔ areApart ps = true := by
  induction ps using joined.induct with
  | case1 m n ps ih => simp [joined, areApart]
  | case2 p ps hpair ih =>
    rw [joined, areApart]
    · simp [ih]
    · exact hpair
    · exact hpair
  | case3 => simp [joined, areApart]

/-- Joined code points begin with a low half only where they did before. -/
theorem exists_of_joined_eq {ps qs : List Point} {n : Fin 1024}
    (h : joined ps = .half false n :: qs) : ∃ rs, ps = .half false n :: rs := by
  unfold joined at h
  split at h
  · exact absurd (List.cons.inj h).1 (by simp)
  · exact ⟨_, by rw [(List.cons.inj h).1]⟩
  · exact absurd h (by simp)

/-- Once they are joined, code points are apart. -/
theorem areApart_joined (ps : List Point) : areApart (joined ps) = true := by
  induction ps using joined.induct with
  | case1 m n ps ih => exact ih
  | case2 p ps hpair ih =>
    rw [joined, areApart]
    · exact ih
    · intro m n qs hp hqs
      obtain ⟨rs, hrs⟩ := exists_of_joined_eq hqs
      exact hpair m n rs hp hrs
    · exact hpair
  | case3 => rfl

/-- Apart code points stay apart behind another, where no pair comes about. -/
theorem areApart_cons {p : Point} {ps : List Point} (h : areApart ps = true)
    (hpair : ∀ m n qs, p = .half true m → ps ≠ .half false n :: qs) : areApart (p :: ps) = true := by
  rwa [areApart]
  exact fun m n qs hp hps => hpair m n qs hp hps

/-- Characters are apart. -/
@[simp] theorem areApart_map_char (cs : List Char) : areApart (cs.map .char) = true := by
  induction cs with
  | nil => rfl
  | cons c cs ih => exact ih

end Point

/-! ## Texts -/

/-- Code points with a half among them. -/
structure Broken where
  points : List Point
  torn : points.any Point.isHalf = true
  deriving DecidableEq, Repr

/-- A text that may hold halves of surrogate pairs. -/
inductive Loose where
  | whole (s : String)
  | broken (t : Broken)
  deriving DecidableEq, Repr

instance : Coe String Loose where
  coe := .whole

namespace Loose

/-- The code points of a text. -/
def points : Loose → List Point
  | .whole s => s.toList.map .char
  | .broken t => t.points

/-- The text with some code points. -/
def ofPoints (ps : List Point) : Loose :=
  if h : ps.any Point.isHalf = true then .broken ⟨ps, h⟩
  else .whole (String.ofList (ps.filterMap Point.char?))

/-- Two texts one after the other. -/
def append : Loose → Loose → Loose
  | .whole s, .whole t => .whole (s ++ t)
  | s, t => .ofPoints (s.points ++ t.points)

instance : Append Loose where
  append := append

/-- Whether a text has no halves in it. -/
def isWhole : Loose → Bool
  | .whole _ => true
  | .broken _ => false

/-- A text as it is shown where halves are not: they stand as escapes. -/
def shown : Loose → String
  | .whole s => s
  | .broken t => String.ofList <| t.points.flatMap fun
    | .char c => [c]
    | p => p.escape

/-- A text as a string of its own.  A whole text is spelled as it is, any other with a mark before each
half that no name on disk has. -/
def spelled : Loose → String
  | .whole s => s
  | .broken t => String.ofList (t.points.flatMap Point.spelled)

/-- The text that a string spells, which has come of a text. -/
def unspelled (origin : Loose) (s : String) : Loose :=
  match origin with
  | .whole _ => .whole s
  | .broken _ => .ofPoints (Point.unspelled s.toList)

/-- A text between quotes, as it stands in messages. -/
def quoted : Loose → List Char
  | .whole s => Quoted.encode s.toList
  | .broken t =>
    let quote := quoteFor (t.points.filterMap Point.char?)
    quote :: t.points.flatMap (fun
      | .char c => encodeChar quote c
      | p => p.escape) ++ [quote]

/-- A text with the halves joined that belong together. -/
def joined (t : Loose) : Loose := .ofPoints (Point.joined t.points)

/-- Whether no two halves belong together. -/
def isApart (t : Loose) : Bool := Point.areApart t.points

@[simp] theorem ofPoints_map_char (cs : List Char) :
    ofPoints (cs.map .char) = .whole (String.ofList cs) := by
  have hwhole : ¬ (cs.map Point.char).any Point.isHalf = true := by
    simp [Point.isHalf]
  have hchars : (cs.map Point.char).filterMap Point.char? = cs := by
    rw [List.filterMap_map]
    exact List.filterMap_some
  rw [ofPoints, dif_neg hwhole, hchars]

/-- A text is the one with its code points. -/
@[simp] theorem ofPoints_points (t : Loose) : ofPoints t.points = t := by
  cases t with
  | whole s => rw [points, ofPoints_map_char, String.ofList_toList]
  | broken t => rw [points, ofPoints, dif_pos t.torn]

theorem filterMap_char? {ps : List Point} (h : ¬ ps.any Point.isHalf = true) :
    (ps.filterMap Point.char?).map .char = ps := by
  induction ps with
  | nil => rfl
  | cons p ps ih =>
    cases p with
    | char c =>
      have hps : ¬ ps.any Point.isHalf = true := by simpa [Point.isHalf] using h
      have hfront : (Point.char c :: ps).filterMap Point.char? = c :: ps.filterMap Point.char? := rfl
      rw [hfront, List.map_cons, ih hps]
    | half => simp [Point.isHalf] at h

@[simp] theorem points_ofPoints (ps : List Point) : (ofPoints ps).points = ps := by
  unfold ofPoints
  split
  · rfl
  · rename_i hwhole
    rw [points, String.toList_ofList, filterMap_char? hwhole]

theorem points_injective {t u : Loose} (h : t.points = u.points) : t = u := by
  rw [← ofPoints_points t, h, ofPoints_points]

/-- What a text spells is this text. -/
@[simp] theorem unspelled_spelled (t : Loose) : t.unspelled t.spelled = t := by
  cases t with
  | whole s => rfl
  | broken t =>
    have hback : Point.unspelled (t.points.flatMap Point.spelled) = t.points := by
      simpa [Point.unspelled] using Point.unspelled_append t.points []
    rw [unspelled, spelled, String.toList_ofList, hback]
    exact ofPoints_points (.broken t)

@[simp] theorem isApart_whole (s : String) : (whole s).isApart = true := Point.areApart_map_char _

/-- A text stays as it is where halves are joined exactly if no two halves in it belong together. -/
theorem joined_eq_self_iff {t : Loose} : t.joined = t ↔ t.isApart = true := by
  rw [joined, isApart, ← Point.joined_eq_self_iff]
  constructor
  · intro h
    rw [← points_ofPoints (Point.joined t.points), h]
  · intro h
    rw [h, ofPoints_points]

/-- Once its halves are joined, a text is apart. -/
@[simp] theorem isApart_joined (t : Loose) : t.joined.isApart = true := by
  rw [isApart, joined, points_ofPoints]
  exact Point.areApart_joined t.points

@[simp] theorem joined_whole (s : String) : (whole s).joined = .whole s :=
  joined_eq_self_iff.2 (isApart_whole s)

end Loose

/-! ## Encoding -/

/-- The halves in a text that keep it from being encoded: where the first of them stands, and the halves
that stand there in a row. -/
structure Unencodable where
  start : Nat
  halves : List Point
  deriving DecidableEq, Repr

/-- The wording of an encoding error. -/
def Unencodable.message (e : Unencodable) : String :=
  "'utf-8' codec can't encode " ++
    (match e.halves with
      | [p] => "character '" ++ String.ofList p.escape ++ "' in position " ++ toString e.start
      | ps => "characters in position " ++ toString e.start ++ "-" ++ toString (e.start + ps.length - 1))
    ++ ": surrogates not allowed"

/-- The first halves among code points. -/
def Unencodable.ofPoints (ps : List Point) : Unencodable :=
  let front := ps.takeWhile (!·.isHalf)
  ⟨front.length, (ps.drop front.length).takeWhile (·.isHalf)⟩

/-- The bytes of a text in UTF-8. -/
def Loose.encode : Loose → Except Unencodable Bytes
  | .whole s => .ok (Utf8.encode s.toList)
  | .broken t => .error (.ofPoints t.points)

end SheetBuild.Text
