import RecordFilter.Text.CharClass

/-!
# Globally unique identifiers

Identifiers of 128 bits and their canonical text: 32 lower case hexadecimal digits in groups of
8, 4, 4, 4 and 12.
-/

namespace RecordFilter

/-- A globally unique identifier. -/
structure Guid where
  bits : Nat
deriving DecidableEq, Repr, Inhabited

namespace Guid

/-- The lengths of the groups of digits. -/
def groups : List Nat := [8, 4, 4, 4, 12]

/-- Cuts a list of digits into groups. -/
def cut : List Nat → List Char → List String
  | [], _ => []
  | n :: ns, cs => String.ofList (cs.take n) :: cut ns (cs.drop n)

/-- The canonical text. -/
def text (g : Guid) : String :=
  "-".intercalate (cut groups (Text.hexDigits 32 g.bits))

/-- How an identifier is shown inside lists and messages. -/
def display (g : Guid) : String :=
  "UUID('" ++ g.text ++ "')"

/-- Reads 32 hexadecimal digits, whatever hyphens and braces stand between and around them. -/
def ofChars? (cs : List Char) : Option Guid := do
  let cs := cs.filter fun c => c != '-' && c != '\x7b' && c != '\x7d'
  let ds ← cs.mapM Text.hexValue?
  if ds.length = 32 then some ⟨ds.foldl (fun n d => 16 * n + d) 0⟩ else none

/-- The text has the form of an identifier; a line break may follow it. -/
def isWritten (cs : List Char) : Bool :=
  let (front, rest) := (cs.take 36, cs.drop 36)
  let digits := front.filter (· != '-')
  digits.all (fun c => (Text.hexValue? c).isSome) && digits.length == 32 &&
    "-".intercalate (cut groups digits) == String.ofList front &&
    (rest.isEmpty || rest == ['\n'])

end Guid

end RecordFilter
