import RecordFilter.Filter
import RecordFilter.Predicate.Notes

/-!
# Shared operands

An operand that can be reached from several places is the same operand everywhere: whatever checking
finds out about it shows at all of them. Such an operand has labels on all its parts. The type and
the mark of a labelled part are noted under its label (`Expr.record`), and an operand is brought up
to date from the notes before it is used (`Expr.current`). Operands without labels belong to one
place only and stay as they are.
-/

namespace RecordFilter

namespace Notes

/-- The type and the mark that are noted for a part of an operand, or else those that it has. -/
def known (notes : Notes) (type : Option TypeRef) (mark : Mark) : Option TypeRef × Mark :=
  match mark.label.bind fun id => notes.lookup id with
  | some note => (note.type, { mark with checked := note.checked, wasChecked := note.wasChecked })
  | none => (type, mark)

/-- Notes the type and the mark of a part of an operand, if it has a label. -/
def keep (notes : Notes) (type : Option TypeRef) (mark : Mark) : Notes :=
  match mark.label with
  | some id => notes.put id { checked := mark.checked, wasChecked := mark.wasChecked, type }
  | none => notes

end Notes

/-- The mark with a label, which is a new one unless it has one. -/
def Mark.labelled (mark : Mark) : Build Mark := do
  match mark.label with
  | some _ => return mark
  | none => return { mark with label := some (← Build.fresh) }

namespace Expr

mutual

/-- The operand as the notes know it. -/
def current (notes : Notes) : Expr → Expr
  | literal value type explicit mark =>
    let (type, mark) := notes.known type mark
    literal value type explicit mark
  | path p type mark =>
    let (type, mark) := notes.known type mark
    path p type mark
  | call function args type mark =>
    let (type, mark) := notes.known type mark
    call function (currentAll notes args) type mark

/-- The operands as the notes know them. -/
def currentAll (notes : Notes) : List Expr → List Expr
  | [] => []
  | e :: es => current notes e :: currentAll notes es

end

mutual

/-- Notes what an operand shows about its labelled parts. Of two parts with one label the first one
counts. -/
def record (notes : Notes) : Expr → Notes
  | literal _ type _ mark => notes.keep type mark
  | path _ type mark => notes.keep type mark
  | call _ args type mark => recordAll (notes.keep type mark) args

/-- Notes what operands show about their labelled parts. -/
def recordAll (notes : Notes) : List Expr → Notes
  | [] => notes
  | e :: es => record (recordAll notes es) e

end

mutual

/-- The operand with labels on all its parts. -/
def labelled : Expr → Build Expr
  | literal value type explicit mark => return literal value type explicit (← mark.labelled)
  | path p type mark => return path p type (← mark.labelled)
  | call function args type mark => do
    let args ← labelledAll args
    return call function args type (← mark.labelled)

/-- The operands with labels on all their parts. -/
def labelledAll : List Expr → Build (List Expr)
  | [] => return []
  | e :: es => do
    let e ← labelled e
    return e :: (← labelledAll es)

end

end Expr

namespace Note

/-- The note with labels on all its operands. -/
def labelled (note : Note) : Build Note := do
  return { note with
    left := ← note.left.mapM Expr.labelled
    right := ← note.right.mapM Expr.labelled
    collection := ← note.collection.mapM Expr.labelled }

end Note

/-- The notes with labels on all their operands. -/
def Notes.labelled (notes : Notes) : Build Notes :=
  notes.mapM fun (id, note) => return (id, ← note.labelled)

namespace Node

/-- The node with labels on all its parts. -/
def labelled : Node → Build Node
  | expr e => return expr (← e.labelled)
  | n => return n

/-- The operand that a node is. -/
def toExpr? : Node → Option Expr
  | expr e => some e
  | _ => none

/-- A call of a function. -/
def callOf (function : Function) (args : List (Option Node)) : Build Node := do
  match args.mapM fun n => n.bind toExpr? with
  | some es => return expr (.call function es (some (.data function.resultType)) {})
  | none => return call (← Build.fresh) function args

/-- A node in the place of a predicate; operands may stand there as well. -/
def toPredicate : Node → Predicate
  | predicate p => p
  | n => .bare n

end Node

end RecordFilter
