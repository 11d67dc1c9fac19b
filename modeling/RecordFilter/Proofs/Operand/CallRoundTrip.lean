import RecordFilter.Proofs.Operand.Layout

/-!
# Round trip of calls

A call is written as the name of its function with the arguments in parentheses, and reading takes
that text apart with no grammar. The text is read as the same call again, however deep calls are nested
and whatever the texts among the arguments hold besides single quotes and marks
(`Operand.call_round_trip`).
-/

namespace RecordFilter

mutual

/-- The operand by what it says: the names of its functions, the values of its literals with their
types, and its paths. What it is known by is left out, and so is whether a type was spelled out. -/
def Expr.outline : Expr → Expr
  | .literal v type _ _ => .literal v type false {}
  | .path p _ _ => .path p none {}
  | .call f args _ _ => .call f (Expr.outlines args) (some (.data f.resultType)) {}

/-- The operands by what they say. -/
def Expr.outlines : List Expr → List Expr
  | [] => []
  | e :: es => Expr.outline e :: Expr.outlines es

end

/-! ### Writing -/

theorem Text.points_join (ts : List Text) :
    (Text.join "," ts).points = [CodePoint.char ','].intercalate (ts.map Text.points) := by
  induction ts with
  | nil => rfl
  | cons t ts ih =>
    cases ts with
    | nil => exact (List.intercalate_singleton).symm
    | cons t' ts =>
      show t.points ++ [CodePoint.char ','] ++ (Text.join "," (t' :: ts)).points = _
      rw [ih]
      exact (List.intercalate_cons_cons).symm

theorem Operand.flatMap_intercalate (pss : List (List Operand.Piece)) :
    ([Operand.Piece.plain ','].intercalate pss).flatMap Operand.Piece.chars =
      [CodePoint.char ','].intercalate (pss.map (List.flatMap Operand.Piece.chars)) := by
  induction pss with
  | nil => rfl
  | cons ps pss ih =>
    cases pss with
    | nil => simp
    | cons ps' pss =>
      rw [List.intercalate_cons_cons, List.flatMap_append, List.flatMap_append, ih]
      exact (List.intercalate_cons_cons).symm

/-- The text of an argument. -/
def Expr.written (e : Expr) : Text :=
  ⟨e.pieces.flatMap Operand.Piece.chars⟩

section

variable (c : Catalog) {context : Context}

theorem Expr.callText_of_texts (f : Function) (ts : List Text) :
    Expr.callText f (ts.map .text) =
      .ok (.text (f.name ++ "(" ++ Text.join "," ts ++ ")" : Text)) := by
  have htexts : (ts.map Value.text).mapM Value.asText? = some ts := by
    induction ts with
    | nil => rfl
    | cons t ts ih =>
      rw [List.map_cons, List.mapM_cons, ih]
      rfl
  unfold Expr.callText
  rw [htexts]
  rfl

theorem Expr.written_call (f : Function) (args : List Expr) (type : Option TypeRef) (mark : Mark) :
    (Expr.call f args type mark).written =
      (f.name ++ "(" ++ Text.join "," (args.map Expr.written) ++ ")" : Text) := by
  have hpieces : ∀ es : List Expr, (Expr.piecesAll es).map (List.flatMap Operand.Piece.chars) =
      (es.map Expr.written).map Text.points := by
    intro es
    induction es with
    | nil => rfl
    | cons e es ih => exact congrArg (_ :: ·) ih
  refine congrArg Text.mk ?_
  show (Expr.call f args type mark).pieces.flatMap Operand.Piece.chars =
    (f.name : Text).points ++ [CodePoint.char '('] ++ (Text.join "," (args.map Expr.written)).points ++
      [CodePoint.char ')']
  rw [Text.points_join, ← hpieces, ← Operand.flatMap_intercalate, Expr.pieces, List.flatMap_append,
    List.flatMap_append, Operand.chars_plain]
  rfl

variable (hserver : context.server.truthy = false)

include hserver

set_option linter.unusedSectionVars false in
mutual

/-- An argument is written as the text of its pieces. -/
theorem Expr.argumentForm_of_isArgument :
    ∀ e : Expr, e.IsArgument → e.argumentForm c context = .ok (.text e.written)
  | .literal v type explicit mark, he => by
    cases v
    case int n =>
      have hwritten : (Expr.literal (.int n) type explicit mark).written = (Text.ofInt n : Text) :=
        congrArg Text.mk (Operand.chars_plain _)
      rw [hwritten]
      rfl
    case double d =>
      have hwritten : (Expr.literal (.double d) type explicit mark).written = (d.text : Text) :=
        congrArg Text.mk (Operand.chars_plain _)
      rw [hwritten]
      rfl
    case text s =>
      have hquote : s.points.contains (.char '\'') = false := by
        rw [List.contains_eq_mem, decide_eq_false_iff_not]
        exact fun hmem => (he.2 _ hmem).1 rfl
      have hform : (Value.text s).asArgument = .ok ("'" ++ s ++ "'" : Text) := by
        show Except.ok (if s.points.contains (.char '\'') then _ else _) = _
        rw [hquote]
        rfl
      have hwritten : (Expr.literal (.text s) type explicit mark).written = ("'" ++ s ++ "'" : Text) := by
        refine congrArg Text.mk ?_
        show ([CodePoint.char '\''] ++ s.points ++ [CodePoint.char '\'']) ++ [] = _
        exact List.append_nil _
      unfold Expr.argumentForm
      rw [hform, hwritten]
      rfl
    all_goals exact he.elim
  | .path p type mark, he => by
    obtain ⟨s, rfl, -⟩ := he
    have hwritten : (Expr.path (.text s) type mark).written = s :=
      congrArg Text.mk (Operand.chars_plain _)
    unfold Expr.argumentForm Expr.writtenPath
    rw [hserver, hwritten]
  | .call f args type mark, he => by
    unfold Expr.argumentForm
    rw [Expr.argumentForms_of_allArguments args he, ok_bind, Expr.callText_of_texts, Expr.written_call]

theorem Expr.argumentForms_of_allArguments : ∀ es : List Expr, Expr.AllArguments es →
    Expr.argumentForms c context es = .ok ((es.map Expr.written).map .text)
  | [], _ => rfl
  | e :: es, he => by
    unfold Expr.argumentForms
    rw [Expr.argumentForm_of_isArgument e he.1, ok_bind, Expr.argumentForms_of_allArguments es he.2]
    rfl

end

/-- The canonical form of a call is the text of its pieces. -/
theorem Expr.canonical_call {f : Function} {args : List Expr} (type : Option TypeRef) (mark : Mark)
    (hargs : Expr.AllArguments args) :
    (Expr.call f args type mark).canonical c context =
      .ok (.text (Expr.call f args type mark).written) := by
  have hsame : (Expr.call f args type mark).canonical c context =
      (Expr.call f args type mark).argumentForm c context := by
    rw [Expr.canonical, Expr.argumentForm]
  rw [hsame]
  exact Expr.argumentForm_of_isArgument c hserver (.call f args type mark) hargs

end

/-! ### Reading -/

namespace Operand

/-- The items `ys` stand in the list from the place `n` on. -/
def IsAt {α : Type} (xs : List α) (n : Nat) (ys : List α) : Prop :=
  ys <+: xs.drop n

theorem IsAt.append {α : Type} {xs ys zs : List α} {n : Nat} (h : IsAt xs n (ys ++ zs)) :
    IsAt xs n ys ∧ IsAt xs (n + ys.length) zs := by
  obtain ⟨rest, hrest⟩ := h
  refine ⟨⟨zs ++ rest, by rw [← hrest, List.append_assoc]⟩, ⟨rest, ?_⟩⟩
  rw [← List.drop_drop, ← hrest, List.append_assoc, List.drop_left]

theorem IsAt.getElem? {α : Type} {xs : List α} {n : Nat} {y : α} (h : IsAt xs n [y]) :
    xs[n]? = some y := by
  obtain ⟨rest, hrest⟩ := h
  have hhead : (xs.drop n)[0]? = some y := by
    rw [← hrest]
    rfl
  rwa [List.getElem?_drop, Nat.add_zero] at hhead

theorem IsAt.self {α : Type} (xs : List α) : IsAt xs 0 xs := by
  exact ⟨[], List.append_nil _⟩

/-- There are so few groups and quoted parts that their numbers can be read. -/
structure Linear.IsSmall (l : Linear) : Prop where
  groups : ∀ k < l.groups.length, (Text.digits k).length ≤ Numeral.maxIntDigits
  quoted : ∀ k < l.quoted.length, (Text.digits k).length ≤ Numeral.maxIntDigits

end Operand

/-- The text of an argument when the quoted parts are back in their places: a call refers to its group
then, all else is as it was written. -/
def Expr.argumentText (n g : Nat) : Expr → List CodePoint
  | .call f args type mark => (Expr.call f args type mark).residue n g
  | e => e.pieces.flatMap Operand.Piece.chars

/-- The texts of arguments when the quoted parts are back in their places. -/
def Expr.argumentTexts (n g : Nat) : List Expr → List (List CodePoint)
  | [] => []
  | e :: es => e.argumentText n g ::
      Expr.argumentTexts (n + (Operand.quotedParts e.pieces).length) (g + (e.groups n g).length) es

section

variable {l : Operand.Linear}

theorem Operand.no_quoteMark_of_reference (f : Function) (k : Nat) :
    ∀ c ∈ Operand.reference f.name k, c ≠ Operand.quoteMark := by
  intro c hc
  rcases List.mem_append.mp hc with hc | hc
  · exact (f.isArgumentText_name.isUnmarked c hc).2.2.2.2
  · rcases List.mem_cons.mp hc with rfl | hc
    · decide
    · exact (Operand.groupMark_ne_of_mem_digits hc).2.1

/-- Putting the quoted parts back makes the text of an argument of its residue. -/
theorem Expr.unmasks_residue {e : Expr} (he : e.IsArgument) (hl : l.IsSmall) {n : Nat} (g : Nat)
    (hquoted : Operand.IsAt l.quoted n (Operand.quotedParts e.pieces)) :
    Operand.Unmasks l.quoted (e.residue n g) (e.argumentText n g) := by
  have hleaf : Operand.IsLeafForm e.pieces → Operand.Unmasks l.quoted
      (Operand.maskFrom n e.pieces) (e.pieces.flatMap Operand.Piece.chars) := by
    intro hform
    generalize e.pieces = ps at hform hquoted
    cases hform with
    | bare hs =>
      rw [Operand.maskFrom_plain, Operand.chars_plain]
      exact .of_not_mem fun c hc => (hs.isUnmarked c hc).2.2.2.2
    | @quoted s hs =>
      have hpart := hquoted.getElem?
      have hn : n < l.quoted.length := (List.getElem?_eq_some_iff.mp hpart).1
      have hchars : [Operand.Piece.quoted (.char '\'') s.points].flatMap Operand.Piece.chars =
          (Operand.Piece.quoted (.char '\'') s.points).chars := List.append_nil _
      have hmask : Operand.maskFrom n [Operand.Piece.quoted (.char '\'') s.points] =
          [Operand.quoteMark] ++ (Text.digits n).map .char ++ [Operand.quoteMark] :=
        List.append_nil _
      rw [hchars, hmask]
      exact .of_getElem? hpart (hl.quoted n hn)
  -- Quoted parts inside a call are in its group and not in its reference.
  cases e with
  | literal => exact hleaf (Expr.isLeafForm_pieces he trivial)
  | path => exact hleaf (Expr.isLeafForm_pieces he trivial)
  | call f args => exact .of_not_mem (Operand.no_quoteMark_of_reference f _)

theorem Expr.unmasks_residues (hl : l.IsSmall) : ∀ (es : List Expr) (n g : Nat),
    Expr.AllArguments es → Operand.IsAt l.quoted n (Operand.quotedParts
      ([Operand.Piece.plain ','].intercalate (Expr.piecesAll es))) →
        Operand.Unmasks l.quoted ([CodePoint.char ','].intercalate (Expr.residues n g es))
          ([CodePoint.char ','].intercalate (Expr.argumentTexts n g es))
  | [], _, _, _, _ => .of_not_mem (by simp [Expr.residues])
  | [e], n, g, he, hquoted => by
    rw [Expr.piecesAll, Expr.piecesAll, List.intercalate_singleton] at hquoted
    simpa [Expr.residues, Expr.argumentTexts] using Expr.unmasks_residue he.1 hl g hquoted
  | e :: e' :: es, n, g, he, hquoted => by
    rw [Expr.quotedParts_piecesAll] at hquoted
    obtain ⟨hfirst, hrest⟩ := hquoted.append
    have htexts : [CodePoint.char ','].intercalate (Expr.argumentTexts n g (e :: e' :: es)) =
        e.argumentText n g ++ [CodePoint.char ','] ++ [CodePoint.char ','].intercalate
          (Expr.argumentTexts (n + (Operand.quotedParts e.pieces).length) (g + (e.groups n g).length)
            (e' :: es)) := List.intercalate_cons_cons
    rw [Expr.intercalate_residues, htexts]
    exact ((Expr.unmasks_residue he.1 hl g hfirst).append (.of_not_mem (by decide))).append
      (Expr.unmasks_residues hl (e' :: es) _ _ he.2 hrest)

/-- A text that trimming leaves as it is does not begin with a blank. -/
theorem Operand.isBlank_of_trimPoints {d : CodePoint} {cs : List CodePoint}
    (h : Text.trimPoints (d :: cs) = d :: cs) : Text.isBlank d = false := by
  by_contra hblank
  -- A blank at the beginning would be trimmed, which makes the text shorter.
  have hdrop : Text.trimPoints (d :: cs) = Text.trimPoints cs := by
    unfold Text.trimPoints Text.dropBothEnds
    rw [List.dropWhile_cons_of_pos (by simpa using hblank)]
  have hshort : (Text.trimPoints cs).length ≤ cs.length :=
    (Operand.dropBothEnds_isInfix _ cs).length_le
  rw [← hdrop, h, List.length_cons] at hshort
  omega

/-- A text that stands for itself begins an argument, whatever follows but quotes and commas. -/
theorem Text.IsArgumentText.isArgument_append {s : Text} (hs : s.IsArgumentText)
    {rest : List CodePoint} (hrest : ∀ d ∈ rest, Operand.isQuote d = false ∧ d ≠ ',') :
    Operand.IsArgument (s.points ++ rest) := by
  rcases hpoints : s.points with - | ⟨c, cs⟩
  · exact (hs.ne_nil hpoints).elim
  · refine .inl ⟨c, cs ++ rest, rfl, ?_, fun d hd => ?_⟩
    · apply Operand.isBlank_of_trimPoints
      rw [← hpoints]
      exact congrArg Text.points hs.trim
    · rcases List.mem_append.mp hd with hd | hd
      · rw [← hpoints] at hd
        exact ⟨(hs.isUnmarked d hd).1, hs.no_comma d hd⟩
      · exact hrest d hd

theorem Expr.isArgument_argumentText {e : Expr} (he : e.IsArgument) (n g : Nat) :
    Operand.IsArgument (e.argumentText n g) := by
  have hleaf : Operand.IsLeafForm e.pieces →
      Operand.IsArgument (e.pieces.flatMap Operand.Piece.chars) := by
    intro hform
    generalize e.pieces = ps at hform
    cases hform with
    | @bare s hs =>
      have hend : Operand.IsArgument (s.points ++ []) := hs.isArgument_append (by simp)
      rwa [Operand.chars_plain, ← List.append_nil s.points]
    | @quoted s hs =>
      refine .inr ⟨s.points, ?_, fun hmem => (hs _ hmem).1 rfl⟩
      simp [Operand.Piece.chars]
  cases e with
  | literal => exact hleaf (Expr.isLeafForm_pieces he trivial)
  | path => exact hleaf (Expr.isLeafForm_pieces he trivial)
  | call f args type mark =>
    refine f.isArgumentText_name.isArgument_append fun d hd => ?_
    rcases List.mem_cons.mp hd with rfl | hd
    · decide
    · obtain ⟨c, hc, rfl⟩ := List.mem_map.mp hd
      have hdigit : Numeral.IsNumeralChar c := .inl (Numeral.isDigit_of_mem_digits hc)
      exact ⟨Numeral.isQuote_of_isNumeralChar hdigit,
        Numeral.ne_of_isNumeralChar hdigit (by decide)⟩

theorem Expr.isArgument_argumentTexts : ∀ (es : List Expr) (n g : Nat), Expr.AllArguments es →
    ∀ t ∈ Expr.argumentTexts n g es, Operand.IsArgument t
  | [], _, _, _, _, ht => by cases ht
  | e :: es, n, g, he, t, ht => by
    rcases List.mem_cons.mp ht with rfl | ht
    · exact Expr.isArgument_argumentText he.1 n g
    · exact Expr.isArgument_argumentTexts es _ _ he.2 t ht

end

/-! ### Reading literals and paths -/

namespace Operand

/-- What stands between blanks is left when a text is trimmed. -/
theorem trimPoints_between {lead trail : List CodePoint} {a b : CodePoint}
    (hlead : ∀ d ∈ lead, Text.isBlank d = true) (htrail : ∀ d ∈ trail, Text.isBlank d = true)
    (ha : Text.isBlank a = false) (hb : Text.isBlank b = false) (cs : List CodePoint) :
    Text.trimPoints (lead ++ (a :: (cs ++ [b])) ++ trail) = a :: (cs ++ [b]) := by
  unfold Text.trimPoints Text.dropBothEnds
  rw [List.append_assoc, List.dropWhile_append_of_pos hlead, List.cons_append,
    List.dropWhile_cons_of_neg (by simp [ha]), ← List.cons_append, List.reverse_append,
    List.dropWhile_append_of_pos (by simpa using htrail), List.reverse_cons, List.reverse_append,
    List.reverse_singleton, List.singleton_append, List.cons_append,
    List.dropWhile_cons_of_neg (by simp [hb])]
  simp

theorem trimPoints_enclosed {a b : CodePoint} (ha : Text.isBlank a = false)
    (hb : Text.isBlank b = false) (cs : List CodePoint) :
    Text.trimPoints (a :: (cs ++ [b])) = a :: (cs ++ [b]) := by
  have hnone : ∀ d ∈ ([] : List CodePoint), Text.isBlank d = true := fun d hd => by cases hd
  simpa using trimPoints_between hnone hnone ha hb cs

theorem quotedInside?_quoted {q : CodePoint} (hq : isQuote q = true) (s : List CodePoint) :
    quotedInside? (q :: (s ++ [q])) = some s := by
  unfold quotedInside?
  simp [hq]

theorem isNumber_of_isNumeralChar {s : String} (hs : ∀ c ∈ s.toList, Numeral.IsNumeralChar c) :
    isNumber (s : Text).points = (Numeral.parts? (Numeral.sign s.toList).2).isSome := by
  have hplain : (s : Text).points.map (fun c => Numeral.plainDigit c.toChar) = s.toList := by
    rw [Text.points_ofString, List.map_map]
    exact Numeral.map_plainDigit_of_isNumeralChar hs
  unfold isNumber
  rw [hplain]

theorem numberValue_of_int? {s : String} {n : Int} (h : Numeral.int? s.toList = some n) :
    numberValue (s : Text).points = .int n := by
  have hchars : (s : Text).points.map CodePoint.toChar = s.toList := Text.chars_ofString s
  unfold numberValue
  dsimp only
  rw [hchars, h]

theorem numberValue_of_double? {s : String} {d : Double} (hint : Numeral.int? s.toList = none)
    (h : Numeral.double? s.toList = some d) : numberValue (s : Text).points = .double d := by
  have hchars : (s : Text).points.map CodePoint.toChar = s.toList := Text.chars_ofString s
  unfold numberValue
  dsimp only
  rw [hchars, hint, h]
  rfl

section

variable (c : Catalog) {place : Place} (hschema : place.schema = none)

include hschema

/-- The text of a number is read as the number among the arguments of a call. -/
theorem bare_number {s : String} {v : Value} (hs : (s : Text).IsArgumentText)
    (hnumber : isNumber (s : Text).points = true) (hv : numberValue (s : Text).points = v) :
    bare c place.argument (Text.trimPoints (s : Text).points) = Expr.ofValue v none false := by
  have htrim : Text.trimPoints (s : Text).points = (s : Text).points := congrArg Text.points hs.trim
  have hargument : place.argument.isArgument = true := rfl
  have hnone : place.argument.schema = none := hschema
  rw [htrim]
  unfold bare
  rw [quotedInside?_of_isUnmarked hs.isUnmarked]
  dsimp only
  rw [hargument, hnone, hnumber, hv]
  rfl

/-- The text of an argument that is no call is read as this argument. -/
theorem bare_of_isArgument {e : Expr} (he : e.IsArgument) (hleaf : e.IsLiteralOrPath) :
    bare c place.argument (Text.trimPoints (e.pieces.flatMap Piece.chars)) = .ok e.outline := by
  cases e with
  | literal v type explicit mark =>
    cases v
    case int n =>
      obtain ⟨rfl, hlength⟩ := he
      have hpoints : (Expr.literal (.int n) (some (.data .int32)) explicit mark).pieces.flatMap
          Piece.chars = (Text.ofInt n : Text).points := chars_plain _
      have hnumber : isNumber (Text.ofInt n : Text).points = true := by
        rw [isNumber_of_isNumeralChar fun c hc => Numeral.isNumeralChar_of_mem_ofInt hc,
          Numeral.sign_ofInt]
        exact Numeral.parts?_digits _
      rw [hpoints, bare_number c hschema (Numeral.isArgumentText_ofInt n) hnumber
        (numberValue_of_int? (Numeral.int?_ofInt hlength))]
      rfl
    case double d =>
      obtain ⟨rfl, hfinite, hread⟩ := he
      -- The point or the exponent keeps the text from being taken for an integer.
      obtain ⟨hchars, hmark⟩ := Double.mem_text hfinite
      have hpoints : (Expr.literal (.double d) (some (.data .double)) explicit mark).pieces.flatMap
          Piece.chars = (d.text : Text).points := chars_plain _
      have hnumber : isNumber (d.text : Text).points = true := by
        rw [isNumber_of_isNumeralChar hchars]
        exact Numeral.parts?_of_double? hchars hread
      rw [hpoints, bare_number c hschema (Double.isArgumentText_text hfinite) hnumber
        (numberValue_of_double? (Numeral.int?_of_mark hchars hmark) hread)]
      rfl
    case text s =>
      obtain ⟨rfl, hs⟩ := he
      have hpoints : (Expr.literal (.text s) (some (.data .undefined)) explicit mark).pieces.flatMap
          Piece.chars = .char '\'' :: (s.points ++ [.char '\'']) := List.append_nil _
      rw [hpoints, trimPoints_enclosed (by decide) (by decide)]
      unfold bare
      rw [quotedInside?_quoted (by decide)]
      rfl
    all_goals exact he.elim
  | path p type mark =>
    obtain ⟨s, rfl, hs, hnumber⟩ := he
    have hpoints : (Expr.path (.text s) type mark).pieces.flatMap Piece.chars = s.points :=
      chars_plain _
    have htrim : Text.trimPoints s.points = s.points := congrArg Text.points hs.trim
    have hnone : place.argument.schema = none := hschema
    rw [hpoints, htrim]
    unfold bare
    rw [quotedInside?_of_isUnmarked hs.isUnmarked]
    dsimp only
    rw [hnone, hnumber, Bool.and_false]
    rfl
  | call => exact hleaf.elim

end

/-- The text of an argument that is no call holds no marks. -/
theorem IsLeafForm.no_mark {ps : List Piece} (h : IsLeafForm ps) :
    ∀ c ∈ ps.flatMap Piece.chars, c ≠ groupMark ∧ c ≠ quoteMark := by
  intro c hc
  cases h with
  | bare hs =>
    rw [chars_plain] at hc
    exact (hs.isUnmarked c hc).2.2.2
  | quoted hs =>
    simp only [List.flatMap_cons, List.flatMap_nil, List.append_nil, Piece.chars, List.mem_append,
      List.mem_singleton] at hc
    rcases hc with (rfl | hc) | rfl
    · decide
    · exact (hs c hc).2
    · decide

end Operand

/-! ### Reading calls -/

section

variable (c : Catalog) {l : Operand.Linear} (hl : l.IsSmall)

theorem Function.ofName?_name (f : Function) : Function.ofName? (f.name : Text) = some f := by
  cases f <;> rfl

/-- A function is called by its name. -/
theorem Function.callOf?_name (f : Function) (args : List Expr) :
    Operand.callOf? (f.name : Text).points args =
      some (.call f args (some (.data f.resultType)) {}) := by
  have htrim : Text.mk (Text.trimPoints (f.name : Text).points) = f.name := f.isArgumentText_name.trim
  unfold Operand.callOf?
  rw [htrim, f.ofName?_name]
  rfl

theorem Operand.Linear.group?_natCast (l : Operand.Linear) (k : Nat) :
    l.group? (k : Int) = l.groups[k]? := by
  unfold Operand.Linear.group?
  rw [if_neg (by omega), Int.toNat_natCast]

/-- The texts of the arguments are those between the parentheses of the group with the number. -/
theorem Operand.argumentTexts_digits {k : Nat} {group u : List CodePoint}
    (hk : (Text.digits k).length ≤ Numeral.maxIntDigits) (hgroup : l.groups[k]? = some group)
    (hunmask : Operand.unmask l.quoted group = .ok (.char '(' :: (u ++ [.char ')']))) :
    Operand.argumentTexts l ((Text.digits k).map .char) = .ok (Operand.arguments u) := by
  have hindex : Numeral.int? (((Text.digits k).map CodePoint.char).map CodePoint.toChar) =
      some (k : Int) := by
    rw [List.map_map]
    show Numeral.int? ((Text.digits k).map id) = _
    rw [List.map_id]
    exact Numeral.int?_digits hk
  unfold Operand.argumentTexts
  rw [hindex]
  dsimp only [Option.bind_some]
  rw [Operand.Linear.group?_natCast, hgroup]
  dsimp only
  rw [hunmask, ok_bind, Operand.trimPoints_enclosed (by decide) (by decide), List.drop_one,
    List.tail_cons, List.dropLast_concat]
  rfl

/-- A reference to a group by the name of a function is a call with the operands in that group, which
takes one unit of fuel more than reading them. -/
theorem Operand.expression_reference {f : Function} {texts : List (List CodePoint)} {k : Nat}
    (htexts : Operand.argumentTexts l ((Text.digits k).map .char) = .ok texts) (fuel : Nat)
    (place : Operand.Place) :
    Operand.expression c l (fuel + 1) place (Operand.reference f.name k) = Operand.orNothing do
      let args ← Operand.readAll (Operand.expression c l fuel place.argument) texts
      return args.map fun args => .call f args (some (.data f.resultType)) {} := by
  have hsplit := Operand.split_reference
    (fun c hc => (f.isArgumentText_name.isUnmarked c hc).2.2.2.1) k
  rw [Operand.expression_succ hsplit, htexts, ok_bind]
  rcases Operand.readAll (Operand.expression c l fuel place.argument) texts with e | - | args
  · rfl
  · rfl
  · show Operand.orNothing (.ok ((some args).bind (Operand.callOf? _))) = _
    rw [Option.bind_some, f.callOf?_name]
    rfl

include hl

/-- The arguments of a call are the texts in its group. -/
theorem Operand.argumentTexts_of_group {args : List Expr} {n g k : Nat}
    (hargs : Expr.AllArguments args)
    (hquoted : Operand.IsAt l.quoted n (Operand.quotedParts
      ([Operand.Piece.plain ','].intercalate (Expr.piecesAll args))))
    (hgroup : l.groups[k]? = some ([CodePoint.char '('] ++
      [CodePoint.char ','].intercalate (Expr.residues n g args) ++ [CodePoint.char ')'])) :
    Operand.argumentTexts l ((Text.digits k).map .char) = .ok (Expr.argumentTexts n g args) := by
  have hunmask : Operand.unmask l.quoted ([CodePoint.char '('] ++
      [CodePoint.char ','].intercalate (Expr.residues n g args) ++ [CodePoint.char ')']) =
        .ok (.char '(' :: ([CodePoint.char ','].intercalate (Expr.argumentTexts n g args) ++
          [.char ')'])) :=
    Operand.Unmasks.unmask_eq ((Operand.Unmasks.append (.of_not_mem (by decide))
      (Expr.unmasks_residues hl args n g hargs hquoted)).append (.of_not_mem (by decide)))
  have hsmall := hl.groups k (List.getElem?_eq_some_iff.mp hgroup).1
  rw [Operand.argumentTexts_digits hsmall hgroup hunmask,
    Operand.arguments_intercalate (Expr.isArgument_argumentTexts args n g hargs)]

/-- A call is read when its arguments are read. -/
theorem Operand.expression_of_group {f : Function} {args : List Expr} {n g k fuel : Nat}
    {place : Operand.Place} (hargs : Expr.AllArguments args)
    (hquoted : Operand.IsAt l.quoted n (Operand.quotedParts
      ([Operand.Piece.plain ','].intercalate (Expr.piecesAll args))))
    (hgroup : l.groups[k]? = some ([CodePoint.char '('] ++
      [CodePoint.char ','].intercalate (Expr.residues n g args) ++ [CodePoint.char ')']))
    (hread : Operand.readAll (Operand.expression c l fuel place.argument)
      (Expr.argumentTexts n g args) = .ok (some (Expr.outlines args))) :
    Operand.expression c l (fuel + 1) place (Operand.reference f.name k) =
      .ok (some (.call f (Expr.outlines args) (some (.data f.resultType)) {})) := by
  rw [Operand.expression_reference c (Operand.argumentTexts_of_group hl hargs hquoted hgroup), hread]
  rfl

set_option linter.unusedSectionVars false in
mutual

/-- **Among the arguments of a call the text of an argument is read as the argument**, with as much
fuel as there are groups up to it. -/
theorem Expr.expression_argumentText : ∀ (e : Expr) (n g fuel : Nat) (place : Operand.Place),
    e.IsArgument → place.schema = none →
      Operand.IsAt l.quoted n (Operand.quotedParts e.pieces) →
        Operand.IsAt l.groups g (e.groups n g) → g + (e.groups n g).length ≤ fuel →
          Operand.expression c l fuel place.argument (e.argumentText n g) = .ok (some e.outline)
  | .literal v type explicit mark, n, g, fuel, place, he, hschema, _, _, _ => by
    have hform := Expr.isLeafForm_pieces he trivial
    show Operand.expression c l fuel place.argument
      ((Expr.literal v type explicit mark).pieces.flatMap Operand.Piece.chars) = _
    rw [Operand.expression_of_no_mark c l fuel _ hform.no_mark,
      Operand.bare_of_isArgument c hschema he trivial]
    rfl
  | .path p type mark, n, g, fuel, place, he, hschema, _, _, _ => by
    have hform := Expr.isLeafForm_pieces he trivial
    show Operand.expression c l fuel place.argument
      ((Expr.path p type mark).pieces.flatMap Operand.Piece.chars) = _
    rw [Operand.expression_of_no_mark c l fuel _ hform.no_mark,
      Operand.bare_of_isArgument c hschema he trivial]
    rfl
  | .call f args type mark, n, g, fuel, place, he, hschema, hquoted, hgroups, hfuel => by
    rw [Expr.quotedParts_call] at hquoted
    rw [Expr.groups, List.length_append, List.length_singleton] at hfuel
    -- The group of the call stands behind the groups of its arguments and takes one unit of fuel.
    obtain ⟨hinner, hgroup⟩ := Operand.IsAt.append hgroups
    obtain ⟨fuel, rfl⟩ := Nat.exists_eq_add_of_le' (show 1 ≤ fuel by omega)
    have hread := Expr.readAll_argumentTexts args n g fuel place he hschema hquoted hinner (by omega)
    exact Operand.expression_of_group c hl he hquoted hgroup.getElem? hread

theorem Expr.readAll_argumentTexts : ∀ (es : List Expr) (n g fuel : Nat) (place : Operand.Place),
    Expr.AllArguments es → place.schema = none →
      Operand.IsAt l.quoted n (Operand.quotedParts
        ([Operand.Piece.plain ','].intercalate (Expr.piecesAll es))) →
        Operand.IsAt l.groups g (Expr.groupsAll n g es) → g + (Expr.groupsAll n g es).length ≤ fuel →
          Operand.readAll (Operand.expression c l fuel place.argument) (Expr.argumentTexts n g es) =
            .ok (some (Expr.outlines es))
  | [], _, _, _, _, _, _, _, _, _ => rfl
  | e :: es, n, g, fuel, place, he, hschema, hquoted, hgroups, hfuel => by
    rw [Expr.quotedParts_piecesAll] at hquoted
    rw [Expr.groupsAll, List.length_append] at hfuel
    obtain ⟨hquoted, hquotedRest⟩ := hquoted.append
    obtain ⟨hgroups, hgroupsRest⟩ := Operand.IsAt.append hgroups
    have hfirst := Expr.expression_argumentText e n g fuel place he.1 hschema hquoted hgroups (by omega)
    have hrest := Expr.readAll_argumentTexts es _ _ fuel place he.2 hschema hquotedRest hgroupsRest
      (by omega)
    exact Operand.readAll_cons hfirst hrest

end

end

/-! ### The round trip -/

mutual

/-- There are no more groups than characters. -/
theorem Expr.length_groups_le : ∀ (e : Expr) (n g : Nat),
    (e.groups n g).length ≤ (e.pieces.flatMap Operand.Piece.chars).length
  | .literal .., _, _ => Nat.zero_le _
  | .path .., _, _ => Nat.zero_le _
  | .call f args type mark, n, g => by
    have hinner := Expr.length_groupsAll_le args n g
    rw [Expr.groups, Expr.pieces, List.length_append, List.flatMap_append, List.length_append,
      List.flatMap_append, List.length_append]
    have hlast : (([Operand.Piece.plain ')'] : List _).flatMap Operand.Piece.chars).length = 1 := rfl
    rw [List.length_singleton, hlast]
    omega

theorem Expr.length_groupsAll_le : ∀ (es : List Expr) (n g : Nat),
    (Expr.groupsAll n g es).length ≤
      (([Operand.Piece.plain ','].intercalate (Expr.piecesAll es)).flatMap Operand.Piece.chars).length
  | [], _, _ => Nat.zero_le _
  | [e], n, g => by
    have hfirst := Expr.length_groups_le e n g
    rw [Expr.piecesAll, Expr.piecesAll, List.intercalate_singleton]
    simpa [Expr.groupsAll] using hfirst
  | e :: e' :: es, n, g => by
    have hfirst := Expr.length_groups_le e n g
    have hrest := Expr.length_groupsAll_le (e' :: es) (n + (Operand.quotedParts e.pieces).length)
      (g + (e.groups n g).length)
    rw [Expr.intercalate_piecesAll, Expr.groupsAll, List.length_append, List.flatMap_append,
      List.length_append, List.flatMap_append, List.length_append]
    omega

end

/-- **Round trip of calls.** Take a call of arguments: integers of at most 4300 digits, doubles that
are numbers and read back from their texts, texts without single quotes and marks, each with the type
that a literal of its value is given, paths of texts that stand for themselves and are no numbers, and
again such calls. It has a canonical form, which is a text, and this text is read as the call: with the
same functions, the same arguments in their order, and the same values, types of literals and paths.
The numbers of groups and quoted parts are read with the digits of an integer, so the text has to be
shorter than `10 ^ 4300`, as every text in a memory is. -/
theorem Operand.call_round_trip (c : Catalog) {context : Context}
    (hserver : context.server.truthy = false) (f : Function) {args : List Expr}
    (type : Option TypeRef) (mark : Mark) (hargs : Expr.AllArguments args) :
    ∃ s : Text, (Expr.call f args type mark).canonical c context = .ok (.text s) ∧
      (s.length < 10 ^ Numeral.maxIntDigits →
        Operand.ofText? c {} s.points = .ok (some (Expr.call f args type mark).outline)) := by
  let e : Expr := .call f args type mark
  refine ⟨e.written, Expr.canonical_call c hserver type mark hargs, fun hsize => ?_⟩
  let l : Operand.Linear := ⟨e.residue 0 0, e.groups 0 0, Operand.quotedParts e.pieces⟩
  have hlinear : Operand.Linear.ofText e.written.points = l := Expr.linear_ofText hargs
  -- The numbers of groups and quoted parts stay below the length of the text.
  have hdigits : ∀ {k m : Nat}, k < m → m ≤ (e.pieces.flatMap Operand.Piece.chars).length →
      (Text.digits k).length ≤ Numeral.maxIntDigits := by
    intro k m hk hm
    refine (Nat.length_toDigits_le_iff (by decide) (by decide)).mpr ?_
    exact Nat.lt_trans (Nat.lt_of_lt_of_le hk hm) hsize
  have hsmall : l.IsSmall :=
    ⟨fun k hk => hdigits hk (Expr.length_groups_le e 0 0),
      fun k hk => hdigits hk (Operand.length_quotedParts_le _)⟩
  obtain ⟨hinner, hgroup⟩ := Operand.IsAt.append (Operand.IsAt.self l.groups)
  have hquoted : Operand.IsAt l.quoted 0 (Operand.quotedParts
      ([Operand.Piece.plain ','].intercalate (Expr.piecesAll args))) := by
    rw [← Expr.quotedParts_call f args type mark]
    exact .self _
  have hread := Expr.readAll_argumentTexts c hsmall args 0 0 l.groups.length {} hargs rfl hquoted hinner
    (by simp [l, e, Expr.groups])
  unfold Operand.ofText?
  rw [hlinear]
  exact Operand.expression_of_group c hsmall hargs hquoted hgroup.getElem? hread

theorem Operand.call_round_trip_of_nested :
    let text : Expr := .literal (.text "a, \"b\" (c) ") (some (.data .undefined)) false {}
    let inner : Expr := .call .trim [.path (.text "name") none {}] none {}
    let integer : Expr := .literal (.int (-12)) (some (.data .int32)) false {}
    let double : Expr := .literal (.double (.finite false 6755399441055744 (-52)))
      (some (.data .double)) false {}
    let e : Expr := .call .concat [text, inner, integer, double, .call .length [] none {}] none {}
    ∃ s : Text, e.canonical [] {} = .ok (.text s) ∧ s.length < 10 ^ Numeral.maxIntDigits ∧
      Operand.ofText? [] {} s.points = .ok (some e.outline) := by
  intro text inner integer double e
  have hname : Text.IsArgumentText "name" :=
    ⟨by decide, by decide, by unfold Text.IsUnmarked; decide, by decide⟩
  have hargs : Expr.AllArguments [text, inner, integer, double, .call .length [] none {}] := by
    refine ⟨⟨rfl, by decide⟩, ⟨⟨"name", rfl, hname, by decide⟩, trivial⟩, ⟨rfl, by decide⟩,
      ⟨rfl, trivial, by decide +kernel⟩, trivial, trivial⟩
  have hserver : ({} : Context).server.truthy = false := rfl
  obtain ⟨s, hs, hread⟩ := Operand.call_round_trip [] hserver .concat none {} hargs
  have hwritten : e.canonical [] {} = .ok (.text e.written) :=
    Expr.canonical_call [] hserver none {} hargs
  have hsame : s = e.written := by
    rw [hs] at hwritten
    cases hwritten
    rfl
  have hshort : s.length < 10 ^ 2 := by
    rw [hsame]
    decide +kernel
  have hsize : s.length < 10 ^ Numeral.maxIntDigits :=
    Nat.lt_of_lt_of_le hshort (Nat.pow_le_pow_right (by decide) (by decide))
  exact ⟨s, hs, hsize, hread hsize⟩

end RecordFilter
