import RecordFilter.Text.Blank
import RecordFilter.Text.CharClass
import RecordFilter.Value

/-!
# Linear form of operand texts

Operand texts such as `toupper(substring(companyName, 1, 2))` are read without a grammar. First the
quoted parts are masked: each is replaced by its number between two quote marks, so that what they
hold is out of the way. Then every parenthesised group is cut out, innermost first, and replaced by
a placeholder with its number. What is left is flat text; the groups and the quoted parts are looked
up by number when they are needed.

`Piece` separates the two steps of masking: `pieces` finds the quoted parts, and `maskFrom` numbers
them.
-/

namespace RecordFilter.Operand

/-- The mark in front of the number of a group. -/
def groupMark : CodePoint := '¿'

/-- The mark on both sides of the number of a quoted part. -/
def quoteMark : CodePoint := '¾'

/-- A single or double quote. -/
def isQuote (c : CodePoint) : Bool :=
  c == '\'' || c == '"'

/-- A character outside quotes, or a part between two quotes. -/
inductive Piece where
  | plain (c : CodePoint)
  | quoted (quote : CodePoint) (inside : List CodePoint)
deriving DecidableEq, Repr

/-- The characters of a piece. -/
def Piece.chars : Piece → List CodePoint
  | plain c => [c]
  | quoted q inside => [q] ++ inside ++ [q]

/-- The pieces of a text of which a quoted part may already be open, with its characters so far,
last one first. A quote opens a part only when it is closed further on. -/
def piecesFrom : Option (CodePoint × List CodePoint) → List CodePoint → List Piece
  | none, [] => []
  | some (q, inside), [] => .plain q :: inside.reverse.map .plain
  | none, c :: cs =>
    if isQuote c && cs.contains c then piecesFrom (some (c, [])) cs
    else .plain c :: piecesFrom none cs
  | some (q, inside), c :: cs =>
    if c = q then .quoted q inside.reverse :: piecesFrom none cs
    else piecesFrom (some (q, c :: inside)) cs

/-- The pieces of a text. -/
def pieces (cs : List CodePoint) : List Piece :=
  piecesFrom none cs

/-- The text of pieces with every quoted part replaced by its number, counted from `n`. -/
def maskFrom (n : Nat) : List Piece → List CodePoint
  | [] => []
  | .plain c :: ps => c :: maskFrom n ps
  | .quoted .. :: ps =>
    [quoteMark] ++ (Text.digits n).map .char ++ [quoteMark] ++ maskFrom (n + 1) ps

/-- The quoted parts among pieces, with their quotes. -/
def quotedParts : List Piece → List (List CodePoint)
  | [] => []
  | .plain _ :: ps => quotedParts ps
  | p :: ps => p.chars :: quotedParts ps

/-- The number that digits of any script denote, if it is not too long to be read. -/
def number (ds : List CodePoint) : Except Fault Nat :=
  if 4300 < ds.length then .error .badValue
  else .ok (ds.foldl (fun n c => 10 * n + (Text.digitValue? c.toChar).getD 0) 0)

/-- The quoted part with a number. -/
def quotedPart (quoted : List (List CodePoint)) (ds : List CodePoint) :
    Except Fault (List CodePoint) := do
  match quoted[← number ds]? with
  | some part => return part
  | none => throw .badIndex

/-- Puts the quoted parts back in place of their numbers. The first argument holds the digits read
since a quote mark that may be the left one of a pair, last one first. -/
def unmaskFrom (quoted : List (List CodePoint)) :
    Option (List CodePoint) → List CodePoint → Except Fault (List CodePoint)
  | none, [] => .ok []
  | some ds, [] => .ok (quoteMark :: ds.reverse)
  | none, c :: cs =>
    if c = quoteMark then unmaskFrom quoted (some []) cs
    else do return c :: (← unmaskFrom quoted none cs)
  | some ds, c :: cs => do
    if Text.isDecimalDigit c.toChar then unmaskFrom quoted (some (c :: ds)) cs
    else if c = quoteMark then
      if ds.isEmpty then return quoteMark :: (← unmaskFrom quoted (some []) cs)
      else
        let part ← quotedPart quoted ds.reverse
        return part ++ (← unmaskFrom quoted none cs)
    else return [quoteMark] ++ ds.reverse ++ [c] ++ (← unmaskFrom quoted none cs)

/-- A text with its quoted parts put back. -/
def unmask (quoted : List (List CodePoint)) (cs : List CodePoint) : Except Fault (List CodePoint) :=
  unmaskFrom quoted none cs

/-- The state of cutting out groups: for every parenthesis that is open, and below them for the
text outside, the characters since then, last one first; and the groups cut out so far, last one
first. -/
structure Cutting where
  outer : List (List CodePoint)
  current : List CodePoint
  groups : List (List CodePoint)

/-- Reads one character. A closing parenthesis ends the innermost open group. -/
def Cutting.step (s : Cutting) (c : CodePoint) : Cutting :=
  if c = '(' then { s with outer := s.current :: s.outer, current := [] }
  else if c = ')' then
    match s.outer with
    | [] => { s with current := c :: s.current }
    | below :: outer =>
      { outer
        current := (Text.digits s.groups.length).reverse.map .char ++ [groupMark] ++ below
        groups := ([.char '('] ++ s.current.reverse ++ [.char ')']) :: s.groups }
  else { s with current := c :: s.current }

/-- The text that is left, with the parentheses that were never closed. -/
def Cutting.rest : List (List CodePoint) → List CodePoint → List CodePoint
  | [], current => current.reverse
  | below :: outer, current => Cutting.rest outer (current ++ [.char '('] ++ below)

/-- An operand text in linear form. -/
structure Linear where
  source : List CodePoint
  groups : List (List CodePoint)
  quoted : List (List CodePoint)

/-- The linear form of an operand text. -/
def Linear.ofText (cs : List CodePoint) : Linear :=
  let ps := pieces cs
  let s := (maskFrom 0 ps).foldl Cutting.step ⟨[], [], []⟩
  { source := Cutting.rest s.outer s.current
    groups := s.groups.reverse
    quoted := quotedParts ps }

/-- The group with a number; negative numbers count from the end. -/
def Linear.group? (l : Linear) (n : Int) : Option (List CodePoint) :=
  if n < 0 then
    if -n ≤ l.groups.length then l.groups[l.groups.length - n.natAbs]? else none
  else l.groups[n.toNat]?

/-- How far an argument of a call has been read. -/
inductive Splitting where
  /-- Between two arguments. -/
  | between
  /-- In an argument that ends at the next comma, its characters last one first. -/
  | plain (read : List CodePoint)
  /-- In an argument that ends at its second quote; the flag tells whether the first was read. -/
  | quoted (opened : Bool) (read : List CodePoint)

/-- After blanks, a quote and its closing quote follow. -/
def startsQuoted (quote : CodePoint) (cs : List CodePoint) : Bool :=
  match cs.dropWhile Text.isBlank with
  | c :: rest => c == quote && rest.contains quote
  | [] => false

/-- Splits the arguments of a call at commas. A part in quotes is an argument of its own, whatever
it holds; `quote` is the kind of quotes that matters. -/
def splitFrom (quote : CodePoint) : Splitting → List CodePoint → List (List CodePoint)
  | .between, [] => []
  | .plain read, [] => [read.reverse]
  | .quoted _ read, [] => [read.reverse]
  | .between, c :: cs =>
    if startsQuoted quote (c :: cs) then splitFrom quote (.quoted (c == quote) [c]) cs
    else if c = ',' then splitFrom quote .between cs
    else splitFrom quote (.plain [c]) cs
  | .plain read, c :: cs =>
    if c = ',' then read.reverse :: splitFrom quote .between cs
    else splitFrom quote (.plain (c :: read)) cs
  | .quoted opened read, c :: cs =>
    if c = quote then
      if opened then (c :: read).reverse :: splitFrom quote .between cs
      else splitFrom quote (.quoted true (c :: read)) cs
    else splitFrom quote (.quoted opened (c :: read)) cs

/-- The arguments of a call. Single quotes matter if there are any, double quotes otherwise. -/
def arguments (cs : List CodePoint) : List (List CodePoint) :=
  splitFrom (if cs.contains (CodePoint.char '\'') then '\'' else '"') .between cs

end RecordFilter.Operand
