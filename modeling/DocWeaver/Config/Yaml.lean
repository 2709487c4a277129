import DocWeaver.Config.Value
import DocWeaver.Text.Lines
import DocWeaver.Text.Numbers

/-!
The YAML that settings files are written in: block mappings and sequences by indentation,
flow collections `[a, b]` and `\x7ba: 1\x7d`, plain, single- and double-quoted scalars, literal
and folded block scalars, comments, and the markers `---` and `...` around one document.

Plain scalars take their type from their text: `~`, `null` and the empty text are null;
`yes`, `no`, `on`, `off`, `true` and `false` (in lower, capitalised or upper case) are booleans;
integers may be binary `0b…`, octal `0…`, hexadecimal `0x…`, decimal or base 60 (`1:30`), with
underscores; floats need a point, or are `.inf` and `.nan`; `2024-01-31`, and that date with a
time of day, is a timestamp. Anything else is a string. A value that starts a mapping on the line
of a key (`a: b: c`) is an error, as is a tab between tokens.

Loading builds the values after the whole document is read, a collection's own entries before
the collections nested in it: a timestamp that names no real date or time, or a key that is a
collection, fails there.
-/

namespace DocWeaver.Yaml

open DocWeaver.Numeric
open DocWeaver.Config

/-- A line of the document: its number from zero, its indentation and the text after it. -/
structure Line where
  row : Nat
  indent : Nat
  text : List Char
  deriving Repr, Inhabited

/-- A place in a document: line and column, both counted from zero. -/
structure Mark where
  line : Nat
  column : Nat
  deriving Repr, Inhabited, BEq

def Line.markAt (l : Line) (i : Nat) : Mark := ⟨l.row, l.indent + i⟩

def Line.endMark (last : Line) : Mark := ⟨last.row, last.indent + last.text.length⟩

/-- Why a document is not valid YAML: what was being read and where that began, when it is
known, and the problem and where it was found, when that is known. -/
structure Problem where
  context : Option (String × Mark) := none
  problem : String
  mark : Option Mark := none
  deriving Repr, Inhabited

instance : Coe String Problem := ⟨fun problem => { problem }⟩

def Problem.at (problem : String) (m : Mark) : Problem := { problem, mark := some m }

def Mark.describe (name : String) (m : Mark) : String :=
  "  in \"" ++ name ++ "\", line " ++ toString (m.line + 1) ++ ", column " ++ toString (m.column + 1)

def Problem.describe (name : String) (p : Problem) : String :=
  let context := match p.context with
    | some (c, m) => c :: (if p.mark == some m then [] else [m.describe name])
    | none => []
  "\n".intercalate (context ++ [p.problem] ++ (p.mark.map (Mark.describe name)).toList)

abbrev Parse (α : Type) := Except Problem α

def fail {α : Type} (problem : String) : Parse α := .error { problem }

def isSpace (c : Char) : Bool := c == ' ' || c == '\t'

def splitDocLines (cs : List Char) : List (List Char) :=
  let rec go : Nat → List Char → List Char → List (List Char)
    | 0, acc, _ => [acc.reverse]
    | _ + 1, acc, [] => [acc.reverse]
    | fuel + 1, acc, '\r' :: '\n' :: rest => acc.reverse :: go fuel [] rest
    | fuel + 1, acc, c :: rest =>
      if c == '\n' || c == '\r' || c == '\x85' || c == ' ' || c == ' ' then acc.reverse :: go fuel [] rest
      else go fuel (c :: acc) rest
  go (cs.length + 1) [] cs

def mkLine (row : Nat) (cs : List Char) : Line :=
  let n := (cs.takeWhile (· == ' ')).length
  ⟨row, n, cs.drop n⟩

/-! ### Tabs

Between tokens the scanner skips spaces only, so a tab there cannot start any token: in the
indentation, after a `:` or a `-`, after a scalar, on an otherwise empty line or before a comment.
Tabs are text inside quoted scalars, comments and the bodies of block scalars. -/

/-- What the tab scan carries from one line to the next: nothing, an open quoted scalar with its
quote character, or a block scalar opened on a line of the given indentation, whose more
indented lines are its body. -/
inductive TabState where
  | plain
  | inQuote (q : Char)
  | inBlock (parent : Nat)

def quoteEnd (q : Char) : Nat → List Char → Option (List Char)
  | 0, _ => none
  | _ + 1, [] => none
  | fuel + 1, c :: rest =>
    if q == '"' && c == '\\' then quoteEnd q fuel (rest.drop 1)
    else if c == q then
      if q == '\'' && rest.head? == some '\'' then quoteEnd q fuel (rest.drop 1)
      else some rest
    else quoteEnd q fuel rest

def tabProblem (m : Mark) : Problem :=
  { context := some ("while scanning for the next token", m)
    problem := "found character '\\t' that cannot start any token"
    mark := some m }

/-- Scans the rest `cs` of line `row` from column `col`, outside quotes: a problem at a tab
between tokens, or the state for the next line. A quote opens a quoted scalar where a token
may `start`; a `#` starts a comment after a `blank`. The line's indentation is `indent`. -/
def tabScanLine (row indent : Nat) : Nat → Nat → List Char → Bool → Bool → Except Problem TabState
  | 0, _, _, _, _ => .ok .plain
  | _ + 1, _, [], _, _ => .ok .plain
  | fuel + 1, col, c :: rest, start, blank =>
    if c == '\t' then .error (tabProblem ⟨row, col⟩)
    else if c == '#' && blank then .ok .plain
    else if c == ' ' then tabScanLine row indent fuel (col + 1) rest start true
    else if (c == '"' || c == '\'') && start then
      match quoteEnd c (rest.length + 1) rest with
      | some after => tabScanLine row indent fuel (col + 1 + (rest.length - after.length)) after false false
      | none => .ok (.inQuote c)
    else if (c == '|' || c == '>') && start then
      let marks := rest.takeWhile fun d => d == '-' || d == '+' || d.isDigit
      let tail := rest.drop marks.length
      let spaces := tail.takeWhile (· == ' ')
      match tail.drop spaces.length with
      | '\t' :: _ =>
        .error { context := some ("while scanning a block scalar", ⟨row, col⟩)
                 problem := "expected a comment or a line break, but found '\\t'"
                 mark := some ⟨row, col + 1 + marks.length + spaces.length⟩ }
      | _ => .ok (.inBlock indent)
    else
      let follows := rest.head?.all fun d => d == ' ' || d == '\t'
      let opens := c == '[' || c == '\x7b' || c == ',' ||
        ((c == ':' || c == '-' || c == '?') && follows)
      tabScanLine row indent fuel (col + 1) rest opens false

/-- The first tab between tokens in the lines `ls`, numbered from `row`, as a problem. -/
def strayTabFrom : List (List Char) → Nat → TabState → Option Problem
  | [], _, _ => none
  | cs :: more, row, st =>
    let indent := (cs.takeWhile (· == ' ')).length
    let blankLine := cs.all fun c => c == ' ' || c == '\t'
    let scanPlain : Except Problem TabState :=
      tabScanLine row indent (cs.length + 1) 0 cs true true
    let result : Except Problem TabState :=
      match st with
      | .inBlock parent =>
        if blankLine || indent > parent then .ok st else scanPlain
      | .inQuote q =>
        match quoteEnd q (cs.length + 1) cs with
        | some after => tabScanLine row indent (cs.length + 1) (cs.length - after.length) after false false
        | none => .ok st
      | .plain => scanPlain
    match result with
    | .error p => some p
    | .ok next => strayTabFrom more (row + 1) next

def Line.isBlank (l : Line) : Bool :=
  match l.text.dropWhile isSpace with
  | [] => true
  | '#' :: _ => true
  | _ => false

def dropBlank (ls : List Line) : List Line := ls.dropWhile Line.isBlank

def stripComment (cs : List Char) : List Char :=
  let rec go : List Char → Bool → List Char
    | [], _ => []
    | c :: rest, afterSpace =>
      if c == '#' && afterSpace then [] else c :: go rest (isSpace c)
  (go cs true).reverse.dropWhile isSpace |>.reverse

def isSeqItem (cs : List Char) : Bool :=
  match cs with
  | ['-'] => true
  | '-' :: c :: _ => isSpace c
  | _ => false

/-! ### Scalars -/

def isDigitU (c : Char) : Bool := c.isDigit || c == '_'

def digitsIn (base : Nat) (cs : List Char) : Nat :=
  (cs.filter (· != '_')).foldl (fun n c =>
    let d := if c.isDigit then c.toNat - '0'.toNat
      else if 'a' ≤ c.toLower && c.toLower ≤ 'f' then c.toLower.toNat - 'a'.toNat + 10 else 0
    n * base + d) 0

def sexagesimal (parts : List (List Char)) : Nat :=
  parts.foldl (fun n p => n * 60 + digitsIn 10 p) 0

def sixtyParts (parts : List (List Char)) : Bool :=
  parts.all fun p => match p with
    | [d] => d.isDigit
    | [a, b] => '0' ≤ a && a ≤ '5' && b.isDigit
    | _ => false

/-- The integer a plain scalar writes, if it writes one. -/
def plainInt? (cs : List Char) : Option Int :=
  let (neg, body) := match cs with
    | '-' :: r => (true, r)
    | '+' :: r => (false, r)
    | r => (false, r)
  let sign (n : Nat) : Int := if neg then -(n : Int) else n
  match body with
  | '0' :: 'b' :: r => if !r.isEmpty && r.all (fun c => c == '0' || c == '1' || c == '_') then some (sign (digitsIn 2 r)) else none
  | '0' :: 'x' :: r => if !r.isEmpty && r.all (fun c => c.isDigit || c == '_' || ('a' ≤ c.toLower && c.toLower ≤ 'f')) then some (sign (digitsIn 16 r)) else none
  | ['0'] => some 0
  | '0' :: r => if r.all (fun c => ('0' ≤ c && c ≤ '7') || c == '_') then some (sign (digitsIn 8 r)) else none
  | c :: _ =>
    if '1' ≤ c && c ≤ '9' then
      if body.all isDigitU then some (sign (digitsIn 10 body))
      else
        match body.splitOn ':' with
        | first :: rest@(_ :: _) =>
          if first.all isDigitU && sixtyParts rest then some (sign (sexagesimal (first :: rest))) else none
        | _ => none
    else none
  | [] => none

def exponentOk (cs : List Char) : Bool :=
  match cs with
  | [] => true
  | e :: s :: ds => (e == 'e' || e == 'E') && (s == '+' || s == '-') && !ds.isEmpty && ds.all Char.isDigit
  | _ => false

/-- The float a plain scalar writes, if it writes one. -/
def plainFloat? (cs : List Char) : Option Binary64 :=
  let (neg, body, signed) := match cs with
    | '-' :: r => (true, r, true)
    | '+' :: r => (false, r, true)
    | r => (false, r, false)
  let w := String.ofList body
  if w == ".inf" || w == ".Inf" || w == ".INF" then some (.infinite neg)
  else if !signed && (w == ".nan" || w == ".NaN" || w == ".NAN") then some .nan
  else
    let clean := (cs.filter (· != '_')).map Char.toLower
    match body with
    | '.' :: r =>
      let (ds, ex) := (r.takeWhile isDigitU, r.dropWhile isDigitU)
      if !signed && !ds.isEmpty && exponentOk ex then Text.readFloat? (String.ofList clean) else none
    | c :: _ =>
      if !c.isDigit then none
      else
        let lead := body.takeWhile isDigitU
        let rest := body.dropWhile isDigitU
        match rest with
        | '.' :: r =>
          let ex := r.dropWhile isDigitU
          if exponentOk ex then Text.readFloat? (String.ofList clean) else none
        | ':' :: _ =>
          match (body.splitOn '.') with
          | [whole, frac] =>
            match whole.splitOn ':' with
            | first :: parts@(_ :: _) =>
              if first.all isDigitU && sixtyParts parts && frac.all isDigitU then
                let n := sexagesimal (first :: parts)
                let f := frac.filter (· != '_')
                let m := n * Nat.pow 10 f.length + digitsIn 10 f
                some (Binary64.ofRatio neg m (Nat.pow 10 f.length))
              else none
            | _ => none
          | _ => none
        | _ => let _ := lead; none
    | [] => none

/-! ### Timestamps -/

def isAsciiDigit (c : Char) : Bool := '0' ≤ c && c ≤ '9'

def isStampBlank (c : Char) : Bool := c == ' ' || c == '\t'

def digitsUpTo (k : Nat) (cs : List Char) : Option (Nat × Nat × List Char) :=
  let ds := (cs.takeWhile isAsciiDigit).take k
  if ds.isEmpty then none else some (digitsIn 10 ds, ds.length, cs.drop ds.length)

def skipChar (c : Char) (cs : List Char) : Option (List Char) :=
  match cs with
  | d :: rest => if d == c then some rest else none
  | [] => none

/-- The parts of a timestamp: the date, and for a time of day the hour, minute and second and
the zone offset given with a sign (negative, hours, minutes). -/
structure Stamp where
  year : Nat
  month : Nat
  day : Nat
  time : Option (Nat × Nat × Nat) := none
  offset : Option (Bool × Nat × Nat) := none

def zoneOf? (cs : List Char) : Option (Option (Bool × Nat × Nat)) := do
  match cs with
  | ['Z'] => some none
  | s :: rest =>
    if s != '+' && s != '-' then none
    let (h, _, r) ← digitsUpTo 2 rest
    match r with
    | [] => some (some (s == '-', h, 0))
    | ':' :: r =>
      let (m, k, r) ← digitsUpTo 2 r
      if k == 2 && r.isEmpty then some (some (s == '-', h, m)) else none
    | _ => none
  | [] => none

/-- The timestamp a plain scalar writes: `yyyy-mm-dd`, or `yyyy-m-d` then `T`, `t` or blanks
and `h:mm:ss`, an optional fraction, and an optional zone after optional blanks. -/
def stampOf? (cs : List Char) : Option Stamp := do
  let (year, k, r) ← digitsUpTo 4 cs
  if k != 4 then none
  let r ← skipChar '-' r
  let (month, km, r) ← digitsUpTo 2 r
  let r ← skipChar '-' r
  let (day, kd, r) ← digitsUpTo 2 r
  if r.isEmpty then
    if km == 2 && kd == 2 then some { year, month, day } else none
  else
    let r ← match r with
      | 'T' :: r | 't' :: r => some r
      | c :: _ => if isStampBlank c then some (r.dropWhile isStampBlank) else none
      | [] => none
    let (hour, _, r) ← digitsUpTo 2 r
    let r ← skipChar ':' r
    let (minute, k1, r) ← digitsUpTo 2 r
    let r ← skipChar ':' r
    let (second, k2, r) ← digitsUpTo 2 r
    if k1 != 2 || k2 != 2 then none
    let r := match r with
      | '.' :: r => r.dropWhile isAsciiDigit
      | _ => r
    let offset ← if r.isEmpty then some none else zoneOf? (r.dropWhile isStampBlank)
    some { year, month, day, time := some (hour, minute, second), offset }

def daysInMonth (year month : Nat) : Nat :=
  if month == 2 then
    if year % 4 == 0 && (year % 100 != 0 || year % 400 == 0) then 29 else 28
  else if month == 4 || month == 6 || month == 9 || month == 11 then 30 else 31

def differenceShown (neg : Bool) (secs : Nat) : String :=
  let total : Int := if neg then -(secs : Int) else secs
  let days := Int.ediv total 86400
  let rest := (Int.emod total 86400).toNat
  let parts := (if days != 0 then ["days=" ++ toString days] else []) ++
    (if rest != 0 then ["seconds=" ++ toString rest] else [])
  "datetime.timedelta(" ++ (if parts.isEmpty then "0" else ", ".intercalate parts) ++ ")"

/-- Why a timestamp names no real date or time, checked as the loader builds it: the zone
offset first (it must be less than a day either way), then year, month and day, then hour,
minute and second. -/
def stampError? (st : Stamp) : Option String :=
  let zone := st.offset.bind fun (neg, h, m) =>
    let secs := h * 3600 + m * 60
    if secs ≥ 86400 then
      some ("offset must be a timedelta strictly between -timedelta(hours=24) and " ++
        "timedelta(hours=24), not " ++ differenceShown neg secs ++ ".")
    else none
  let date :=
    if st.year == 0 then some "year 0 is out of range"
    else if st.month < 1 || st.month > 12 then some "month must be in 1..12"
    else if st.day < 1 || st.day > daysInMonth st.year st.month then some "day is out of range for month"
    else none
  let time := st.time.bind fun (h, m, s) =>
    if h > 23 then some "hour must be in 0..23"
    else if m > 59 then some "minute must be in 0..59"
    else if s > 59 then some "second must be in 0..59"
    else none
  zone.orElse fun _ => date.orElse fun _ => time

def resolvePlain (cs : List Char) : Value :=
  let w := String.ofList cs
  if w == "" || w == "~" || w == "null" || w == "Null" || w == "NULL" then .null
  else if ["yes", "Yes", "YES", "true", "True", "TRUE", "on", "On", "ON"].contains w then .bool true
  else if ["no", "No", "NO", "false", "False", "FALSE", "off", "Off", "OFF"].contains w then .bool false
  else
    match plainFloat? cs with
    | some x => .float x
    | none =>
      match plainInt? cs with
      | some n => .int n
      | none =>
        match stampOf? cs with
        | some st => .timestamp w st.time.isSome
        | none => .str w

def breakOf (empties : Nat) : List Char :=
  if empties == 0 then [' '] else List.replicate empties '\n'

def foldRest : List (List Char) → Nat → List Char
  | [], _ => []
  | [l], k => breakOf k ++ l
  | l :: rest, k => if l.isEmpty then foldRest rest (k + 1) else breakOf k ++ l ++ foldRest rest 0

def foldLines : List (List Char) → List Char
  | [] => []
  | l :: rest => l ++ foldRest rest 0

def simpleEscape (c : Char) : Option Char :=
  [('0', '\x00'), ('a', '\x07'), ('b', '\x08'), ('t', '\t'), ('\t', '\t'), ('n', '\n'),
    ('v', '\x0b'), ('f', '\x0c'), ('r', '\r'), ('e', '\x1b'), (' ', ' '), ('"', '"'), ('/', '/'),
    ('\\', '\\'), ('N', '\x85'), ('_', '\xa0'), ('L', ' '), ('P', ' ')].lookup c

def hexN (n : Nat) (cs : List Char) : Option (Nat × List Char) :=
  let ds := cs.take n
  if ds.length == n && ds.all (fun c => c.isDigit || ('a' ≤ c.toLower && c.toLower ≤ 'f')) then
    some (digitsIn 16 ds, cs.drop n)
  else none

/-- The rest of a double-quoted scalar on one line: its characters, whether the line ended in
an escaped break, and what follows the closing quote (`none` when the line ends inside). -/
def doubleLine : Nat → List Char → List Char → Parse (List Char × Bool × Option (List Char))
  | 0, acc, _ => .ok (acc.reverse, false, none)
  | _ + 1, acc, [] => .ok (acc.reverse, false, none)
  | fuel + 1, acc, c :: rest =>
    if c == '"' then .ok (acc.reverse, false, some rest)
    else if c == '\\' then
      match rest with
      | [] => .ok (acc.reverse, true, none)
      | e :: more =>
        match simpleEscape e with
        | some d => doubleLine fuel (d :: acc) more
        | none =>
          let width := if e == 'x' then 2 else if e == 'u' then 4 else if e == 'U' then 8 else 0
          if width == 0 then .error "found unknown escape character"
          else match hexN width more with
            | some (v, more) => doubleLine fuel (Char.ofNat v :: acc) more
            | none => .error "expected escape sequence of hexadecimal numbers"
    else doubleLine fuel (c :: acc) rest

def singleLine : Nat → List Char → List Char → List Char × Option (List Char)
  | 0, acc, _ => (acc.reverse, none)
  | _ + 1, acc, [] => (acc.reverse, none)
  | fuel + 1, acc, c :: rest =>
    if c == '\'' then
      match rest with
      | '\'' :: more => singleLine fuel ('\'' :: acc) more
      | _ => (acc.reverse, some rest)
    else singleLine fuel (c :: acc) rest

def trimRight (cs : List Char) : List Char := (cs.reverse.dropWhile isSpace).reverse

/-- A quoted scalar whose quote stands at `start`, read from `cur`, the rest of a line whose
head is at `pos`; it may go on over the following lines. `done` holds the lines read, `pending`
what the current line has given so far, joined to the next line by an escaped break. The
scalar's text, the text after its closing quote with the place of that, and the lines after. -/
def quoted (double : Bool) (start : Mark) : Nat → List (List Char) → List Char → List Char → Mark →
    List Line → Parse (List Char × (List Char × Mark) × List Line)
  | 0, _, _, _, _, _ => .error "found unexpected end of stream"
  | fuel + 1, done, pending, cur, pos, rest => do
    let endOfStream : Problem :=
      { context := some ("while scanning a quoted scalar", start)
        problem := "found unexpected end of stream"
        mark := some ⟨pos.line, pos.column + cur.length⟩ }
    let placeOf (a : List Char) : Mark := ⟨pos.line, pos.column + (cur.length - a.length)⟩
    let (chars, escapedBreak, after) ← if double then doubleLine (cur.length + 1) [] cur
      else pure (match singleLine (cur.length + 1) [] cur with
        | (chars, after) => (chars, false, after))
    let line := pending ++ chars
    match after with
    | some a => pure (foldLines (line :: done).reverse, (a, placeOf a), rest)
    | none =>
      match rest with
      | [] => throw endOfStream
      | l :: more =>
        let next := l.text.dropWhile isSpace
        let nextPos := l.markAt (l.text.length - next.length)
        if escapedBreak then quoted double start fuel done line next nextPos more
        else quoted double start fuel (trimRight line :: done) [] next nextPos more

def flowQuoted (double : Bool) (cs : List Char) : Parse (List Char × List Char) :=
  if double then do
    let (chars, _, after) ← doubleLine (cs.length + 1) [] cs
    match after with
    | some a => pure (chars, a)
    | none => fail "found unexpected end of stream"
  else
    match singleLine (cs.length + 1) [] cs with
    | (chars, some a) => pure (chars, a)
    | (_, none) => fail "found unexpected end of stream"

def plainText (cs : List Char) : List Char × List Char :=
  let rec go : List Char → Bool → List Char → List Char × List Char
    | [], _, acc => (acc.reverse, [])
    | c :: rest, afterSpace, acc =>
      if c == '#' && afterSpace then (acc.reverse, c :: rest)
      else if c == ':' && (rest.isEmpty || isSpace (rest.headD ' ')) then (acc.reverse, c :: rest)
      else go rest (isSpace c) (c :: acc)
  let (t, r) := go cs false []
  (trimRight t, r)

/-! ### Flow collections -/

def isFlowIndicator (c : Char) : Bool := c == ',' || c == '[' || c == ']' || c == '\x7b' || c == '\x7d'

def flowPlain (cs : List Char) : List Char × List Char :=
  let rec go : List Char → Bool → List Char → List Char × List Char
    | [], _, acc => (acc.reverse, [])
    | c :: rest, afterSpace, acc =>
      if isFlowIndicator c || (c == '#' && afterSpace) then (acc.reverse, c :: rest)
      else if c == ':' && (rest.isEmpty || isSpace (rest.headD ' ') || isFlowIndicator (rest.headD ' ')) then
        (acc.reverse, c :: rest)
      else go rest (isSpace c) (c :: acc)
  let (t, r) := go cs false []
  (trimRight t, r)

def skipFlowSpace (cs : List Char) : List Char := cs.dropWhile fun c => isSpace c || c == '\n'

mutual

/-- A value inside a flow collection. -/
def flowValue : Nat → List Char → Parse (Value × List Char)
  | 0, _ => .error "found unexpected end of stream"
  | fuel + 1, cs =>
    match skipFlowSpace cs with
    | '[' :: rest => flowSeq fuel [] rest
    | '\x7b' :: rest => flowMap fuel [] rest
    | '"' :: rest => do
      let (t, after) ← flowQuoted true rest
      pure (.str (String.ofList t), after)
    | '\'' :: rest => do
      let (t, after) ← flowQuoted false rest
      pure (.str (String.ofList t), after)
    | cs =>
      match cs.head? with
      | some c =>
        if c == '&' || c == '*' || c == '!' || c == '|' || c == '>' || c == '%' || c == '@' || c == '\x60' then
          .error "found character that cannot start any token"
        else
          let (t, rest) := flowPlain cs
          pure (resolvePlain t, rest)
      | none => .error "found unexpected end of stream"

def flowSeq : Nat → List Value → List Char → Parse (Value × List Char)
  | 0, _, _ => .error "found unexpected end of stream"
  | fuel + 1, acc, cs =>
    match skipFlowSpace cs with
    | ']' :: rest => pure (.seq acc.reverse, rest)
    | cs => do
      let (v, rest) ← flowValue fuel cs
      -- a single pair `k: v` is a one-entry mapping
      let (v, rest) ← match skipFlowSpace rest with
        | ':' :: more => do
          let (w, more) ← flowValue fuel more
          pure (Value.map [(v, w)], more)
        | r => pure (v, r)
      match skipFlowSpace rest with
      | ',' :: more => flowSeq fuel (v :: acc) more
      | ']' :: more => pure (.seq (v :: acc).reverse, more)
      | _ => .error "did not find expected ',' or ']'"

def flowMap : Nat → List (Value × Value) → List Char → Parse (Value × List Char)
  | 0, _, _ => .error "found unexpected end of stream"
  | fuel + 1, acc, cs =>
    match skipFlowSpace cs with
    | '\x7d' :: rest => pure (.map acc, rest)
    | cs => do
      let (k, rest) ← flowValue fuel cs
      let (v, rest) ← match skipFlowSpace rest with
        | ':' :: more => flowValue fuel more
        | r => pure (Value.null, r)
      let acc := Value.insert acc k v
      match skipFlowSpace rest with
      | ',' :: more => flowMap fuel acc more
      | '\x7d' :: more => pure (.map acc, more)
      | _ => .error "did not find expected ',' or '\x7d'"

end

def openBrackets (cs : List Char) : Int :=
  let rec go : List Char → Option Char → Int → Int
    | [], _, n => n
    | c :: rest, some q, n => if c == q then go rest none n else go rest (some q) n
    | c :: rest, none, n =>
      if c == '"' || c == '\'' then go rest (some c) n
      else if c == '[' || c == '\x7b' then go rest none (n + 1)
      else if c == ']' || c == '\x7d' then go rest none (n - 1)
      else go rest none n
  go cs none 0

/-- How far a flow collection that never closes was read: the brackets still open, innermost
first, with their places; whether a node comes next; and the quote of an unclosed quoted scalar
with its place. `skip` passes over an escaped character or the second quote of a doubled one. -/
structure FlowScan where
  brackets : List (Char × Mark) := []
  expectNode : Bool := true
  quote : Option (Char × Mark) := none
  skip : Bool := false

def FlowScan.step (st : FlowScan) (c : Char) (next : Option Char) (m : Mark) : FlowScan :=
  match st.quote with
  | some (q, _) =>
    if st.skip then { st with skip := false }
    else if q == '"' && c == '\\' then { st with skip := true }
    else if q == '\'' && c == '\'' && next == some '\'' then { st with skip := true }
    else if c == q then { st with quote := none }
    else st
  | none =>
    if c == '"' || c == '\'' then { st with quote := some (c, m), expectNode := false }
    else if c == '[' || c == '\x7b' then { st with brackets := (c, m) :: st.brackets, expectNode := true }
    else if c == ']' || c == '\x7d' then { st with brackets := st.brackets.drop 1, expectNode := false }
    else if c == ',' then { st with expectNode := true }
    else if c == ':' && next.all (fun d => isSpace d || isFlowIndicator d) then { st with expectNode := true }
    else if isSpace c then st
    else { st with expectNode := false }

def FlowScan.line (l : Line) : FlowScan → List Char → Nat → Bool → FlowScan
  | st, [], _, _ => { st with skip := false }
  | st, c :: cs, i, afterBlank =>
    if st.quote.isNone && c == '#' && afterBlank then { st with skip := false }
    else FlowScan.line l (st.step c cs.head? (l.markAt i)) cs (i + 1) (isSpace c)

def FlowScan.endProblem (st : FlowScan) (eof : Mark) : Problem :=
  let atEnd (context problem : String) (m : Mark) : Problem :=
    { context := some (context, m)
      problem
      mark := some eof }
  match st.quote, st.brackets with
  | some (_, m), _ => atEnd "while scanning a quoted scalar" "found unexpected end of stream" m
  | none, (b, m) :: _ =>
    if st.expectNode then
      atEnd "while parsing a flow node" "expected the node content, but found '<stream end>'" eof
    else if b == '[' then
      atEnd "while parsing a flow sequence" "expected ',' or ']', but got '<stream end>'" m
    else atEnd "while parsing a flow mapping" "expected ',' or '\x7d', but got '<stream end>'" m
  | none, [] => "found unexpected end of stream"

/-- A flow collection that starts at the head of line `l` and may go on over the following
lines: its value and the lines after it. -/
def flowNode (l : Line) (rest : List Line) : Parse (Value × List Line) :=
  let rec gather : Nat → List Char → List Line → List Char × List Line
    | 0, acc, ls => (acc, ls)
    | fuel + 1, acc, ls =>
      if openBrackets acc ≤ 0 then (acc, ls)
      else match ls with
        | [] => (acc, [])
        | m :: more => gather fuel (acc ++ ['\n'] ++ stripComment m.text) more
  let (text, after) := gather (rest.length + 1) (stripComment l.text) rest
  if openBrackets text > 0 then
    let lines := l :: rest
    let st := lines.foldl (fun st m => FlowScan.line m st m.text 0 true) {}
    let last := lines.getLastD l
    .error (st.endProblem last.endMark)
  else
    match flowValue (text.length + 1) text with
    | .ok (v, tail) =>
      if (skipFlowSpace tail).isEmpty then .ok (v, after) else .error "expected <block end>, but found '<scalar>'"
    | .error e => .error e

/-! ### Block structure -/

def missingColon (l : Line) (rest : List Line) (n : Nat) : Problem :=
  let rec next : List Line → Bool → Option Line
    | [], _ => none
    | m :: more, goingOn =>
      if (m.text.dropWhile isSpace).isEmpty then next more goingOn
      else if m.isBlank then next more false
      else if goingOn && m.indent > n then next more goingOn
      else some m
  let place := match next rest (stripComment l.text == trimRight l.text) with
    | some m => m.markAt 0
    | none => (rest.getLastD l).endMark
  { context := some ("while scanning a simple key", l.markAt 0)
    problem := "could not find expected ':'"
    mark := some place }


/-- A block scalar (`|` literal or `>` folded) whose header is `header`, with content lines more
indented than `parent`. -/
def blockScalar (literal : Bool) (header : List Char) (parent : Int) (ls : List Line) :
    Parse (Value × List Line) := do
  let h := stripComment header
  let chomp := if h.contains '-' then "strip" else if h.contains '+' then "keep" else "clip"
  let explicit := (h.find? Char.isDigit).map fun c => c.toNat - '0'.toNat
  if !(h.all fun c => c == '-' || c == '+' || c.isDigit) then fail "expected chomping or indentation indicators"
  let body := ls.takeWhile fun l => (l.text.dropWhile isSpace).isEmpty || (l.indent : Int) > parent
  let rest := ls.drop body.length
  -- trailing empty lines that are followed by a less indented line stay in the content
  let firstContent := body.find? fun l => !(l.text.dropWhile isSpace).isEmpty
  let ind := match explicit with
    | some d => (parent + 1).toNat + d - 1
    | none => match firstContent with
      | some l => l.indent
      | none => 0
  let linesOf := body.map fun l =>
    if (l.text.dropWhile isSpace).isEmpty && l.indent + l.text.length ≤ ind then []
    else List.replicate (l.indent - ind) ' ' ++ l.text
  let core := (linesOf.reverse.dropWhile List.isEmpty).reverse
  let trailing := linesOf.length - core.length
  let text : List Char :=
    if literal then List.intercalate ['\n'] core
    else
      -- folding: breaks between two lines that do not start with a blank become spaces
      let rec fold : List (List Char) → List Char
        | [] => []
        | [l] => l
        | l :: m :: more =>
          let join := if l.isEmpty || m.isEmpty || isSpace (l.headD ' ') || isSpace (m.headD ' ') then ['\n'] else [' ']
          let join := if m.isEmpty && !l.isEmpty then [] else join
          l ++ join ++ fold (m :: more)
      fold core
  let text := if core.isEmpty then [] else text
  let ending : List Char :=
    if chomp == "strip" || core.isEmpty && chomp != "keep" then []
    else if chomp == "keep" then List.replicate (trailing + (if core.isEmpty then 0 else 1)) '\n'
    else ['\n']
  pure (.str (String.ofList (text ++ ending)), rest)

mutual

def node : Nat → Int → List Line → Parse (Value × List Line)
  | 0, _, _ => .error "too deeply nested"
  | fuel + 1, parent, ls =>
    match dropBlank ls with
    | [] => pure (.null, [])
    | l :: rest =>
      if (l.indent : Int) ≤ parent then pure (.null, l :: rest)
      else if isSeqItem l.text then sequence fuel l.indent [] (l :: rest)
      else
        match mappingKey l.text with
        | some _ => mapping fuel l.indent [] (l :: rest)
        | none => scalarNode fuel parent l rest

/-- A scalar or flow node that starts on line `l`; plain scalars go on over lines more indented
than `parent`. -/
def scalarNode : Nat → Int → Line → List Line → Parse (Value × List Line)
  | 0, _, _, _ => .error "too deeply nested"
  | _ + 1, parent, l, rest =>
    match l.text with
    | '[' :: _ | '\x7b' :: _ => flowNode l rest
    | '"' :: more | '\'' :: more => do
      let (t, (after, afterPos), rest') ←
        quoted (l.text.head? == some '"') (l.markAt 0) (rest.length + 2) [] [] more (l.markAt 1) rest
      let after' := after.dropWhile isSpace
      if let ':' :: r := after' then
        if r.isEmpty || isSpace (r.headD ' ') then
          throw (Problem.at "mapping values are not allowed here"
            ⟨afterPos.line, afterPos.column + (after.length - after'.length)⟩)
      if !(stripComment after).isEmpty then fail "expected <block end>, but found '<scalar>'"
      pure (.str (String.ofList t), rest')
    | '|' :: h => blockScalar true h parent rest
    | '>' :: h => blockScalar false h parent rest
    | c :: _ =>
      if c == '&' || c == '*' || c == '!' || c == '%' || c == '@' || c == '\x60' || c == ']' || c == '\x7d' || c == ',' then
        fail "found character that cannot start any token"
      else if isSeqItem l.text then fail "sequence entries are not allowed here"
      else do
        let (t, tail) := plainText l.text
        if !(stripComment tail).isEmpty then
          throw (Problem.at "mapping values are not allowed here" (l.markAt (l.text.length - tail.length)))
        let conts := rest.takeWhile fun m => (m.text.dropWhile isSpace).isEmpty ||
          ((m.indent : Int) > parent && !m.isBlank)
        let conts := (conts.reverse.dropWhile fun m => (m.text.dropWhile isSpace).isEmpty).reverse
        let rest' := rest.drop conts.length
        let mut parts := [t]
        for m in conts do
          let (u, tail') := plainText (m.text.dropWhile isSpace)
          if !(stripComment tail').isEmpty then
            throw (Problem.at "mapping values are not allowed here" (m.markAt (m.text.length - tail'.length)))
          parts := parts ++ [u]
        pure (resolvePlain (foldLines parts), rest')
    | [] => pure (.null, rest)

/-- The entries of a block mapping whose keys stand at column `n`. -/
def mapping : Nat → Nat → List (Value × Value) → List Line → Parse (Value × List Line)
  | 0, _, _, _ => .error "too deeply nested"
  | fuel + 1, n, acc, ls =>
    match dropBlank ls with
    | [] => pure (.map acc, [])
    | l :: rest =>
      if l.indent < n then pure (.map acc, l :: rest)
      else if l.indent > n then .error "mapping values are not allowed here"
      else
        match mappingKey l.text with
        | none =>
          if isSeqItem l.text then .error "expected <block end>, but found '-'"
          else .error (missingColon l rest n)
        | some (k, after) => do
          let col := l.indent + (l.text.length - after.length)
          let after' := after.dropWhile isSpace
          let (v, rest') ←
            if (stripComment after').isEmpty then
              match dropBlank rest with
              | m :: more =>
                if m.indent == n && isSeqItem m.text then sequence fuel n [] (m :: more)
                else node fuel n rest
              | [] => pure (.null, [])
            else
              let inline : Line := ⟨l.row, col + (after.length - after'.length), after'⟩
              if isSeqItem after' then .error "sequence entries are not allowed here"
              else if let some (_, r) := mappingKey after' then
                .error (Problem.at "mapping values are not allowed here" (inline.markAt (after'.length - r.length - 1)))
              else scalarNode fuel n inline rest
          mapping fuel n (Value.insert acc k v) rest'

def sequence : Nat → Nat → List Value → List Line → Parse (Value × List Line)
  | 0, _, _, _ => .error "too deeply nested"
  | fuel + 1, n, acc, ls =>
    match dropBlank ls with
    | [] => pure (.seq acc.reverse, [])
    | l :: rest =>
      if l.indent < n || !isSeqItem l.text then
        if l.indent > n then .error "expected <block end>, but found '<scalar>'"
        else pure (.seq acc.reverse, l :: rest)
      else if l.indent > n then .error "expected <block end>, but found '-'"
      else do
        let after := l.text.drop 1
        let after' := after.dropWhile isSpace
        let (v, rest') ←
          if (stripComment after').isEmpty then node fuel n rest
          else node fuel n (⟨l.row, l.indent + 1 + (after.length - after'.length), after'⟩ :: rest)
        sequence fuel n (v :: acc) rest'

/-- A block mapping key at the head of a line: its value and the text after its `:`. -/
def mappingKey (cs : List Char) : Option (Value × List Char) :=
  match cs with
  | '"' :: more =>
    match doubleLine (more.length + 1) [] more with
    | .ok (t, _, some after) =>
      match after.dropWhile isSpace with
      | ':' :: r => if r.isEmpty || isSpace (r.headD ' ') then some (.str (String.ofList t), r) else none
      | _ => none
    | _ => none
  | '\'' :: more =>
    match singleLine (more.length + 1) [] more with
    | (t, some after) =>
      match after.dropWhile isSpace with
      | ':' :: r => if r.isEmpty || isSpace (r.headD ' ') then some (.str (String.ofList t), r) else none
      | _ => none
    | _ => none
  | c :: _ =>
    if c == '[' || c == '\x7b' || c == '#' || c == '&' || c == '*' || c == '!' || c == '|' || c == '>' ||
      c == '%' || c == '@' || c == '\x60' || isSeqItem cs then none
    else
      let (t, tail) := plainText cs
      match tail with
      | ':' :: r => some (resolvePlain t, r)
      | _ => none
  | [] => none

end

def Line.isMarker (l : Line) (m : List Char) : Bool :=
  l.indent == 0 && l.text.take 3 == m && (l.text.length == 3 || isSpace (l.text.getD 3 ' '))

/-- The value of a whole document; an empty document is null. The document ends at a line
`...` or `---`; only blank lines and comments may follow a `...`. -/
def parseDocument (src : String) : Parse Value := do
  let raw := splitDocLines src.toList
  let ls := raw.zipIdx.map fun (cs, i) => mkLine i cs
  let ls := ls.dropWhile fun l => l.isBlank || (l.indent == 0 && l.text.head? == some '%')
  let ls := match ls with
    | l :: rest =>
      if l.isMarker ['-', '-', '-'] then
        let after := (l.text.drop 3).dropWhile isSpace
        if (stripComment after).isEmpty then rest else ⟨l.row, l.text.length - after.length, after⟩ :: rest
      else ls
    | [] => []
  let endsDocument (l : Line) : Bool := l.isMarker ['-', '-', '-'] || l.isMarker ['.', '.', '.']
  let body := ls.takeWhile fun l => !endsDocument l
  let (v, rest) ← node (body.length * 4 + 16) (-1) body
  if !(dropBlank rest).isEmpty then fail "expected '<document start>', but found '<block mapping start>'"
  match ls.drop body.length with
  | [] => pure v
  | m :: more =>
    if m.isMarker ['.', '.', '.'] && (dropBlank more).isEmpty then pure v
    else fail "expected a single document in the stream"

/-- Why a document does not load. -/
inductive LoadError where
  | invalid (problem : Problem)
  | value (message : String)
  deriving Inhabited

def isCollection : Value → Bool
  | .seq _ | .map _ => true
  | _ => false

def scalarError? : Value → Option LoadError
  | .timestamp text _ => (stampOf? text.toList).bind fun st => (stampError? st).map .value
  | _ => none

def entryCheck : Value → Option LoadError × List Value
  | .seq xs => (xs.findSome? scalarError?, xs.filter isCollection)
  | .map es =>
    (es.findSome? fun (k, w) =>
      if isCollection k then some (.invalid "found unhashable key")
      else (scalarError? k).orElse fun _ => scalarError? w,
     (es.map (·.2)).filter isCollection)
  | _ => (none, [])

def buildError? : Nat → List Value → Option LoadError
  | 0, _ => none
  | _, [] => none
  | fuel + 1, level@(_ :: _) =>
    let checked := level.map entryCheck
    match checked.findSome? (·.1) with
    | some e => some e
    | none => buildError? fuel (checked.flatMap (·.2))

def Mark.before (a b : Mark) : Bool := a.line < b.line || (a.line == b.line && a.column < b.column)

def load (src : String) : Except LoadError Value :=
  let tab := strayTabFrom (splitDocLines src.toList) 0 .plain
  match parseDocument src, tab with
  | .error e, some t =>
    match e.mark, t.mark with
    | some m, some n => .error (.invalid (if m.before n then e else t))
    | _, _ => .error (.invalid t)
  | .error e, none => .error (.invalid e)
  | .ok _, some t => .error (.invalid t)
  | .ok v, none =>
    let failure := if isCollection v then buildError? (src.length + 1) [v] else scalarError? v
    match failure with
    | some e => .error e
    | none => .ok v

end DocWeaver.Yaml
