import RecordFilter.Text.CharClass

/-!
# Quoted text

How a text is shown inside quotes in messages and lists: single quotes, or double quotes when the
text holds a single quote and no double one; a backslash and the quote in use are escaped, and so
is every character without a printed form.
-/

namespace RecordFilter.Text

/-- The quote that encloses a text. -/
def quoteFor (cs : List CodePoint) : CodePoint :=
  if cs.contains (CodePoint.char '\'') && !cs.contains (CodePoint.char '"') then '"' else '\''

/-- A code point as it stands between quotes `quote`. -/
def quotedPoint (quote c : CodePoint) : List CodePoint :=
  if c = quote || c = '\\' then ['\\', c]
  else if c = '\n' then ['\\', 'n']
  else if c = '\r' then ['\\', 'r']
  else if c = '\t' then ['\\', 't']
  else if isPrintable c then [c]
  else if c.number < 0x100 then '\\' :: 'x' :: (hexDigits 2 c.number).map .char
  else if c.number < 0x10000 then '\\' :: 'u' :: (hexDigits 4 c.number).map .char
  else '\\' :: 'U' :: (hexDigits 8 c.number).map .char

/-- A text in quotes. -/
def quoted (s : Text) : Text :=
  let quote := quoteFor s.points
  ⟨[quote] ++ s.points.flatMap (quotedPoint quote) ++ [quote]⟩

end RecordFilter.Text
