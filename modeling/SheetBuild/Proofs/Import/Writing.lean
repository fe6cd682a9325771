import SheetBuild.Proofs.Import.Readers
set_option autoImplicit false

/-!
# Scanning undoes writing

A way to write rules down: each with its name and its targets, in quotes or, in the indented spelling,
as they stand.  Whatever the targets are, the scanner finds what was written, in the order in which it
was written (`scan_write`).  In the spelling with braces white space and comments may stand wherever
one token ends and the next begins.
-/

namespace SheetBuild.Import

/-! ## Writing -/

/-- The two kinds of quotes. -/
inductive QuoteMark where
  | single
  | double
  deriving DecidableEq, Repr

namespace QuoteMark

def char : QuoteMark → Char
  | .single => '\''
  | .double => '"'

/-- The text with a backslash before everything that would end a string or be lost in it. -/
def escape (q : QuoteMark) (target : List Char) : List Char :=
  target.flatMap fun ch => if ch = '\\' ∨ ch = '\n' ∨ ch = q.char then ['\\', ch] else [ch]

end QuoteMark

/-- The text can stand without quotes and is read as it stands. -/
structure StandsBare (target : List Char) : Prop where
  ne_nil : target ≠ []
  noEnd : ∀ ch ∈ target, endsBare ch = false
  noQuote : ∀ ch ∈ target.head?, isQuote ch = false
  noUrl : startsUrl target = false
  noComment : startsComment target = false

/-- A target as it is written: in quotes, or in the indented spelling also as it stands. -/
inductive Written (indented : Bool) where
  | quoted (mark : QuoteMark) (target : List Char)
  | bare (target : List Char) (spelling : indented = true) (h : StandsBare target)

namespace Written

variable {indented : Bool}

def target : Written indented → List Char
  | .quoted _ target => target
  | .bare target _ _ => target

def text : Written indented → List Char
  | .quoted mark target => mark.char :: mark.escape target ++ [mark.char]
  | .bare target _ _ => target

end Written

/-- What may stand between two tokens. -/
inductive Filler where
  | space
  | lineEnd
  /-- a comment, with no end of a comment in its body -/
  | comment (body : List Char) (closed : ∀ front back, body ≠ front ++ '*' :: '/' :: back)

namespace Filler

def text : Filler → List Char
  | .space => [' ']
  | .lineEnd => ['\n']
  | .comment body _ => '/' :: '*' :: body ++ ['*', '/']

/-- The text of what stands between two tokens. -/
def texts (fillers : List Filler) : List Char := fillers.flatMap text

end Filler

/-- A target in its place in a list, with what stands before it and behind it.  In the indented
spelling that is a space and nothing. -/
structure Item (indented : Bool) where
  before : List Filler
  written : Written indented
  behind : List Filler
  plain : indented = true → before = [.space] ∧ behind = []

/-- The text of a target in its place. -/
def Item.text {indented : Bool} (i : Item indented) : List Char :=
  Filler.texts i.before ++ i.written.text ++ Filler.texts i.behind

/-- A rule as it is written, with what stands behind it.  Only an `@import` has more than one target.
In the indented spelling what stands behind a rule is a line end. -/
structure Statement (indented : Bool) where
  directive : Directive
  first : Item indented
  more : List (Item indented)
  behind : List Filler
  single : directive ≠ .import_ → more = []
  plain : indented = true → behind = [.lineEnd]

namespace Statement

variable {indented : Bool}

/-- The text of a rule: its name, its targets with commas between them, and its end. -/
def text (s : Statement indented) : List Char :=
  '@' :: s.directive.word.toList ++ s.first.text ++ s.more.flatMap (',' :: ·.text)
    ++ (if indented then [] else [';']) ++ Filler.texts s.behind

/-- What a rule says. -/
def pairs (s : Statement indented) : List (Directive × String) :=
  (s.first :: s.more).map fun i => (s.directive, String.ofList i.written.target)

end Statement

/-- The text of a list of rules. -/
def write {indented : Bool} (statements : List (Statement indented)) : List Char :=
  statements.flatMap Statement.text

/-- What a reference says, wherever it stands. -/
def Reference.pair (r : Reference) : Directive × String := (r.directive, r.target)

/-! ## Reading a target -/

/-- A string is read back as what was escaped in it. -/
theorem readStringBody_escape (opening : Cursor) (mark : QuoteMark)
    (acc past target rest : List Char) :
    readStringBody opening mark.char acc past (mark.escape target ++ mark.char :: rest)
      = .ok (acc.reverse ++ target,
          ⟨mark.char :: ((mark.escape target).reverse ++ past), rest⟩) := by
  have hbackslash : '\\' ≠ mark.char := by cases mark <;> decide
  induction target generalizing acc past with
  | nil =>
    rw [QuoteMark.escape, List.flatMap_nil, List.nil_append, readStringBody.eq_def]
    simp
  | cons ch target ih =>
    rw [QuoteMark.escape, List.flatMap_cons]
    by_cases hescaped : ch = '\\' ∨ ch = '\n' ∨ ch = mark.char
    · rw [if_pos hescaped, List.append_assoc, List.cons_append, List.singleton_append,
        readStringBody, if_neg hbackslash, if_neg (by decide), if_pos rfl, ← QuoteMark.escape, ih]
      simp
    · rw [if_neg hescaped, List.append_assoc, List.singleton_append, ← QuoteMark.escape]
      rw [not_or, not_or] at hescaped
      obtain ⟨hslash, hline, hmark⟩ := hescaped
      rw [readStringBody.eq_def]
      simp only [if_neg hmark, if_neg hline, if_neg hslash, ih]
      simp

namespace Written

variable {indented newlines : Bool}

/-- A target is read back before anything that ends an unquoted one. -/
theorem readTarget_text (w : Written indented) (past : List Char) {rest : List Char}
    (hrest : indented = true → StopsBare rest) :
    readTarget indented ⟨past, w.text ++ rest⟩
      = .ok (some (w.target, ⟨w.text.reverse ++ past, rest⟩)) := by
  cases w with
  | quoted mark target =>
    have hq : isQuote mark.char = true := by cases mark <;> rfl
    have htext : (quoted mark target : Written indented).text ++ rest
        = mark.char :: (mark.escape target ++ mark.char :: rest) := by simp [text]
    rw [htext, readTarget_of_quote hq, readStringBody_escape]
    simp [Except.map, text, Written.target]
  | bare target spelling h =>
    change readTarget indented ⟨past, target ++ rest⟩
      = .ok (some (target, ⟨target.reverse ++ past, rest⟩))
    subst spelling
    obtain ⟨ch, t, rfl⟩ := List.exists_cons_of_ne_nil h.ne_nil
    have hq : isQuote ch = false := h.noQuote ch rfl
    have hends : endsBare ch = false := h.noEnd ch List.mem_cons_self
    have hb : startsBare ch = true := by
      simp only [endsBare, startsBare, Bool.or_eq_false_iff] at hends ⊢
      simp [hends]
    exact readsAs_bare hq h.noUrl hb h.noEnd (hrest rfl) past rest id

/-- A target begins with neither white space nor a comment. -/
theorem stops_text (w : Written indented) {rest : List Char}
    (hrest : indented = true → StopsBare rest) : Stops newlines (w.text ++ rest) := by
  cases w with
  | quoted mark target =>
    have htext : (quoted mark target : Written indented).text ++ rest
        = mark.char :: (mark.escape target ++ mark.char :: rest) := by simp [text]
    rw [htext]
    refine stops_of_cons ?_ ?_ ?_
    all_goals cases mark <;> simp [QuoteMark.char, isGap]
  | bare target spelling h =>
    change Stops newlines (target ++ rest)
    obtain ⟨ch, t, rfl⟩ := List.exists_cons_of_ne_nil h.ne_nil
    have hends : endsBare ch = false := h.noEnd ch List.mem_cons_self
    have hcomment : startsComment (ch :: t ++ rest) = false := by
      cases t with
      | nil =>
        cases rest with
        | nil => rfl
        | cons ch' r =>
          have hends' : endsBare ch' = true := hrest spelling ch' rfl
          have hslash : ch' ≠ '/' := by
            rintro rfl
            exact absurd hends' (by decide)
          have hstar : ch' ≠ '*' := by
            rintro rfl
            exact absurd hends' (by decide)
          simp [startsComment, hslash, hstar]
      | cons ch' t => exact h.noComment
    refine ⟨hcomment, fun x hx => ?_⟩
    obtain rfl := Option.some.inj hx
    simp only [endsBare, isGap, Bool.or_eq_false_iff] at hends ⊢
    simp [hends]

end Written

/-! ## Skipping what stands between two tokens -/

/-- A comment is skipped up to its end, where that does not come sooner. -/
theorem skipBlockBody_closed (opening : Cursor) {body : List Char}
    (closed : ∀ front back, body ≠ front ++ '*' :: '/' :: back) (past r : List Char) :
    skipBlockBody false opening past (body ++ '*' :: '/' :: r)
      = .ok ⟨'/' :: '*' :: (body.reverse ++ past), r⟩ := by
  induction body generalizing past with
  | nil => rfl
  | cons ch body ih =>
    have hbody : ∀ front back, body ≠ front ++ '*' :: '/' :: back :=
      fun front back heq => closed (ch :: front) back (by rw [heq, List.cons_append])
    rw [List.cons_append, skipBlockBody, if_neg (by simp), ih hbody, List.reverse_cons,
      List.append_assoc, List.singleton_append]
    rintro r' rfl heq
    cases body with
    | nil => exact absurd (List.cons.inj heq).1 (by decide)
    | cons ch' body =>
      obtain ⟨rfl, -⟩ := List.cons.inj heq
      exact closed [] body rfl

/-- What stands between two tokens is skipped. -/
theorem skipGap_fillers (fillers : List Filler) (past r : List Char) :
    skipGap false true ⟨past, Filler.texts fillers ++ r⟩
      = skipGap false true ⟨(Filler.texts fillers).reverse ++ past, r⟩ := by
  induction fillers generalizing past with
  | nil => rfl
  | cons filler fillers ih =>
    have htexts : Filler.texts (filler :: fillers) = filler.text ++ Filler.texts fillers :=
      List.flatMap_cons
    have hfiller : ∀ r, skipGap false true ⟨past, filler.text ++ r⟩
        = skipGap false true ⟨filler.text.reverse ++ past, r⟩ := by
      intro r
      cases filler with
      | space => exact skipGap_gap rfl
      | lineEnd => exact skipGap_gap rfl
      | comment body closed =>
        have htext : (Filler.comment body closed).text ++ r
            = '/' :: '*' :: (body ++ '*' :: '/' :: r) := by simp [Filler.text]
        rw [htext, skipGap_block, skipBlockBody_closed _ closed]
        simp [Except.bind, Filler.text]
    rw [htexts, List.append_assoc, hfiller, ih, List.reverse_append, List.append_assoc]

namespace Item

variable {indented newlines : Bool}

theorem skipGap_before (i : Item indented) (h : indented = false → newlines = true)
    (past r : List Char) :
    skipGap indented newlines ⟨past, Filler.texts i.before ++ r⟩
      = skipGap indented newlines ⟨(Filler.texts i.before).reverse ++ past, r⟩ := by
  cases indented with
  | true =>
    rw [(i.plain rfl).1]
    exact skipGap_gap rfl
  | false =>
    obtain rfl := h rfl
    exact skipGap_fillers i.before past r

theorem skipGap_behind (i : Item indented) (h : indented = false → newlines = true)
    (past r : List Char) :
    skipGap indented newlines ⟨past, Filler.texts i.behind ++ r⟩
      = skipGap indented newlines ⟨(Filler.texts i.behind).reverse ++ past, r⟩ := by
  cases indented with
  | true =>
    rw [(i.plain rfl).2]
    rfl
  | false =>
    obtain rfl := h rfl
    exact skipGap_fillers i.behind past r

theorem stopsBare_behind (i : Item indented) {tail : List Char}
    (htail : indented = true → StopsBare tail) (h : indented = true) :
    StopsBare (Filler.texts i.behind ++ tail) := by
  rw [(i.plain h).2]
  exact htail h

/-- A target ends the name of a rule before it. -/
theorem head_text (i : Item indented) (tail : List Char) :
    ∀ ch ∈ (i.text ++ tail).head?, isNameChar ch = false := by
  obtain ⟨before, written, behind, plain⟩ := i
  cases before with
  | cons filler fillers =>
    have hfiller : ∃ ch t, filler.text = ch :: t ∧ isNameChar ch = false := by
      cases filler with
      | space => exact ⟨_, _, rfl, by decide⟩
      | lineEnd => exact ⟨_, _, rfl, by decide⟩
      | comment => exact ⟨_, _, rfl, by decide⟩
    obtain ⟨ch, t, htext, hch⟩ := hfiller
    simpa [Item.text, Filler.texts, htext] using hch
  | nil =>
    cases written with
    | quoted mark target =>
      have hmark : isNameChar mark.char = false := by cases mark <;> decide
      simpa [Item.text, Filler.texts, Written.text] using hmark
    | bare target spelling h => simpa using (plain spelling).1

end Item

/-! ## Reading a rule -/

section Rule

variable {indented : Bool} {directive : Directive}

/-- One target is read back, and in a list then what is behind it. -/
theorem readReferences_item (directive : Directive) (i : Item indented) (past : List Char)
    {tail : List Char} (htail : indented = true → StopsBare tail) :
    ∃ reference past' past'', reference.pair = (directive, String.ofList i.written.target) ∧
      readReferences indented directive ⟨past, i.text ++ tail⟩ =
        if directive = .import_ then
          (skipGap indented (!indented) ⟨past', tail⟩).bind fun g =>
            match g.rest with
            | ',' :: r =>
              (readReferences indented directive ⟨',' :: g.past, r⟩).map fun p =>
                (reference :: p.1, p.2)
            | _ => .ok ([reference], g)
        else .ok ([reference], ⟨past'', Filler.texts i.behind ++ tail⟩) := by
  have hn : indented = false → (!indented) = true := by simp
  have hbehind := i.stopsBare_behind htail
  have htext : i.text ++ tail
      = Filler.texts i.before ++ (i.written.text ++ (Filler.texts i.behind ++ tail)) := by
    simp [Item.text]
  rw [htext, readReferences_eq, i.skipGap_before hn, skipGap_stop (i.written.stops_text hbehind)]
  simp only [Except.bind, i.written.readTarget_text _ hbehind, i.skipGap_behind hn]
  exact ⟨_, _, _, rfl, rfl⟩

/-- Behind the last target of a rule stands what ends the rule. -/
def EndsRule (indented : Bool) (rest : List Char) : Prop :=
  ∃ r, rest = (if indented then '\n' else ';') :: r

theorem EndsRule.stopsBare {rest : List Char} (h : EndsRule indented rest) : StopsBare rest := by
  obtain ⟨r, rfl⟩ := h
  cases indented <;> simp [StopsBare, endsBare]

theorem EndsRule.stops {rest : List Char} (h : EndsRule indented rest) :
    Stops (!indented) rest := by
  obtain ⟨r, rfl⟩ := h
  cases indented <;> exact stops_of_cons (by simp) (by simp) (by simp [isGap])

theorem EndsRule.noComma {rest : List Char} (h : EndsRule indented rest) (r : List Char) :
    rest ≠ ',' :: r := by
  obtain ⟨r', rfl⟩ := h
  cases indented <;> simp

/-- The targets of a rule are read back, one after the other. -/
theorem readReferences_items (first : Item indented) (more : List (Item indented))
    (single : directive ≠ .import_ → more = []) (past : List Char) {rest : List Char}
    (hrest : EndsRule indented rest) :
    ∃ references f past',
      readReferences indented directive ⟨past, first.text ++ more.flatMap (',' :: ·.text) ++ rest⟩
        = .ok (references, f) ∧
      references.map (·.pair)
        = (first :: more).map (fun i => (directive, String.ofList i.written.target)) ∧
      skipGap indented true f = skipGap indented true ⟨past', rest⟩ := by
  induction more generalizing first past with
  | nil =>
    obtain ⟨reference, past', past'', hpair, hread⟩ :=
      readReferences_item directive first past fun _ => hrest.stopsBare
    rw [List.flatMap_nil, List.append_nil, hread]
    by_cases himport : directive = .import_
    · rw [if_pos himport, skipGap_stop hrest.stops]
      refine ⟨[reference], ⟨past', rest⟩, past', ?_, by simp [hpair], rfl⟩
      simp only [Except.bind]
      split
      · exact absurd rfl (hrest.noComma _)
      · rfl
    · rw [if_neg himport]
      exact ⟨[reference], _, _, rfl, by simp [hpair], first.skipGap_behind (by simp) past'' rest⟩
  | cons second more ih =>
    obtain rfl : directive = .import_ :=
      Decidable.byContradiction fun hne => absurd (single hne) (by simp)
    have hsplit : first.text ++ (second :: more).flatMap (',' :: ·.text) ++ rest
        = first.text ++ ',' :: (second.text ++ more.flatMap (',' :: ·.text) ++ rest) := by simp
    have hcomma : indented = true →
        StopsBare (',' :: (second.text ++ more.flatMap (',' :: ·.text) ++ rest)) :=
      fun _ => by simp [StopsBare, endsBare]
    obtain ⟨reference, past', _, hpair, hread⟩ := readReferences_item .import_ first past hcomma
    rw [hsplit, hread, if_pos rfl,
      skipGap_stop (stops_of_cons (by simp) (by simp) (by simp [isGap]))]
    obtain ⟨references, f, past'', hmore, hpairs, hskip⟩ :=
      ih second (fun h => absurd rfl h) (',' :: past')
    refine ⟨reference :: references, f, past'', ?_, by simp [hpair, hpairs], hskip⟩
    simp only [Except.bind, hmore]
    rfl

end Rule

theorem isNameChar_of_mem_word (directive : Directive) :
    ∀ ch ∈ directive.word.toList, isNameChar ch = true := by
  have hall : directive.word.toList.all isNameChar = true := by cases directive <;> decide
  exact List.all_eq_true.1 hall

theorem ofWord?_word (directive : Directive) :
    Directive.ofWord? directive.word.toList = some directive := by
  cases directive <;> decide

namespace Statement

variable {indented : Bool}

/-- What ends a rule is passed. -/
theorem scanFrom_end (s : Statement indented) (past rest : List Char) :
    ∃ past', scanFrom indented
        ⟨past, (if indented then [] else [';']) ++ Filler.texts s.behind ++ rest⟩
      = scanFrom indented ⟨past', rest⟩ := by
  cases indented with
  | true =>
    rw [s.plain rfl]
    exact ⟨_, scanFrom_congr (skipGap_gap rfl)⟩
  | false =>
    have hstop : Stops true (';' :: (Filler.texts s.behind ++ rest)) :=
      stops_of_cons (by simp) (by simp) (by simp [isGap])
    refine ⟨_, Eq.trans ?_ (scanFrom_congr (skipGap_fillers s.behind (';' :: past) rest))⟩
    rw [scanFrom_eq]
    exact congrArg (Except.bind · _) (skipGap_stop hstop)

/-- A rule is read back, and then what is behind it. -/
theorem scanFrom_text (s : Statement indented) (past rest : List Char) :
    ∃ references past', references.map (·.pair) = s.pairs ∧
      scanFrom indented ⟨past, s.text ++ rest⟩
        = (scanFrom indented ⟨past', rest⟩).map (references ++ ·) := by
  let ending := (if indented then [] else [';']) ++ Filler.texts s.behind ++ rest
  let targets := s.first.text ++ s.more.flatMap (',' :: ·.text) ++ ending
  have hending : EndsRule indented ending := by
    cases indented with
    | true => exact ⟨rest, by simp [ending, s.plain rfl, Filler.texts, Filler.text]⟩
    | false => exact ⟨Filler.texts s.behind ++ rest, rfl⟩
  obtain ⟨references, f, past₁, hread, hpairs, hskip⟩ :=
    readReferences_items s.first s.more s.single (s.directive.word.toList.reverse ++ '@' :: past)
      hending
  obtain ⟨past₂, hend⟩ := s.scanFrom_end past₁ rest
  refine ⟨references, past₂, hpairs, ?_⟩
  have hname : ∀ ch ∈ targets.head?, isNameChar ch = false := by
    simpa [targets] using s.first.head_text (s.more.flatMap (',' :: ·.text) ++ ending)
  have htext : s.text ++ rest = '@' :: (s.directive.word.toList ++ targets) := by
    simp [Statement.text, targets, ending]
  have hstop : Stops true ('@' :: (s.directive.word.toList ++ targets)) :=
    stops_of_cons (by simp) (by simp) (by simp [isGap])
  have hrule : readRule indented ⟨past, '@' :: (s.directive.word.toList ++ targets)⟩
      = .ok (references, f) := by
    obtain ⟨htake, hdrop⟩ := takeWhile_append_tail hname []
    simp only [List.nil_append, List.takeWhile_nil, List.dropWhile_nil] at htake hdrop
    have hword := isNameChar_of_mem_word s.directive
    rw [readRule_eq, List.takeWhile_append_of_pos hword, htake, List.append_nil, ofWord?_word]
    simpa only [Cursor.skipWhile, Cursor.moveOver, List.takeWhile_append_of_pos hword,
      List.dropWhile_append_of_pos hword, htake, hdrop, List.append_nil] using hread
  rw [htext, scanFrom_eq, skipGap_stop hstop]
  simp only [Except.bind, if_true, hrule, scanFrom_congr hskip]
  exact congrArg (Except.map (references ++ ·)) hend

end Statement

/-- Scanning undoes writing: in either spelling, what the scanner finds in a text of rules is what was
written, in the order in which it was written. -/
theorem scan_write {indented : Bool} (statements : List (Statement indented)) :
    (scan indented (write statements)).map (·.map (·.pair))
      = .ok (statements.flatMap Statement.pairs) := by
  have hfrom : ∀ past, (scanFrom indented ⟨past, write statements⟩).map (·.map (·.pair))
      = .ok (statements.flatMap Statement.pairs) := by
    induction statements with
    | nil =>
      intro past
      rw [write, List.flatMap_nil, scanFrom_eq, skipGap_stop stops_nil]
      rfl
    | cons s statements ih =>
      intro past
      obtain ⟨references, past', hpairs, hscan⟩ := s.scanFrom_text past (write statements)
      have hrest := ih past'
      rw [write, List.flatMap_cons, ← write, hscan]
      cases hfound : scanFrom indented ⟨past', write statements⟩ with
      | error e => simp [hfound, Except.map] at hrest
      | ok found =>
        simp only [hfound, Except.map, Except.ok.injEq] at hrest
        simp [Except.map, hpairs, hrest]
  exact hfrom []

/-- A target behind one space. -/
def Item.spaced {indented : Bool} (w : Written indented) : Item indented :=
  ⟨[.space], w, [], fun _ => ⟨rfl, rfl⟩⟩

/-- A quote of the kind of the string has a backslash before it, one of the other kind has none. -/
example :
    (⟨.import_, .spaced (.quoted .single "it's".toList), [.spaced (.quoted .double "it's".toList)],
        [.lineEnd], by decide, fun _ => rfl⟩ : Statement false).text
      = "@import 'it\\'s', \"it's\";\n".toList := by
  decide

end SheetBuild.Import
