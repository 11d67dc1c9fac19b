import RecordFilter.Proofs.Operand.Splitting

/-!
# Calls in linear form

What the linear form of a written call consists of, operand by operand: its pieces, what is left of it
in the text around it when its groups are cut out (`Expr.residue`), and these groups, in order
(`Expr.groups`). Cutting a written operand out of any text gives just that
(`Expr.foldl_step_residue`), so the linear form of a call is known in full
(`Expr.linear_ofText`).
-/

namespace RecordFilter

/-! ### Operands that can be arguments -/

/-- A text that stands for itself among the arguments of a call: it is not empty, has no blanks at its
ends, and holds no quotes, parentheses, marks and commas. -/
structure Text.IsArgumentText (s : Text) : Prop where
  ne_nil : s.points ≠ []
  trim : Text.trim s = s
  isUnmarked : s.IsUnmarked
  no_comma : ∀ c ∈ s.points, c ≠ ','

/-- A literal that can be an argument of a call: an integer that is not too long, a double that is a
number and read back from its text, or a text of no type that holds no single quotes and marks. -/
def Value.IsArgument (type : Option TypeRef) : Value → Prop
  | .int n => type = some (.data .int32) ∧ (Text.digits n.natAbs).length ≤ Numeral.maxIntDigits
  | .double d => type = some (.data .double) ∧ d.IsFinite ∧ Numeral.double? d.text.toList = some d
  | .text s => type = some (.data .undefined) ∧
      ∀ c ∈ s.points, c ≠ .char '\'' ∧ c ≠ Operand.groupMark ∧ c ≠ Operand.quoteMark
  | _ => False

mutual

/-- The operand can be an argument of a call: a literal, the path of a text that stands for itself and
is no number, or a call of arguments. -/
def Expr.IsArgument : Expr → Prop
  | .literal v type _ _ => v.IsArgument type
  | .path p _ _ => ∃ s : Text, p = .text s ∧ s.IsArgumentText ∧ Operand.isNumber s.points = false
  | .call _ args _ _ => Expr.AllArguments args

/-- The operands can be arguments of a call. -/
def Expr.AllArguments : List Expr → Prop
  | [] => True
  | e :: es => Expr.IsArgument e ∧ Expr.AllArguments es

end

/-! ### Pieces -/

/-- The pieces of the text that a literal is written as. -/
def Value.argumentPieces : Value → List Operand.Piece
  | .int n => (Text.ofInt n : Text).points.map .plain
  | .double d => (d.text : Text).points.map .plain
  | .text s => [.quoted '\'' s.points]
  | _ => []

mutual

/-- The pieces of the text that an argument is written as. -/
def Expr.pieces : Expr → List Operand.Piece
  | .literal v _ _ _ => v.argumentPieces
  | .path p _ _ => (p.asText?.elim [] Text.points).map .plain
  | .call f args _ _ =>
    ((f.name : Text).points ++ [CodePoint.char '(']).map .plain ++
      [Operand.Piece.plain ','].intercalate (Expr.piecesAll args) ++ [.plain ')']

/-- The pieces of arguments. -/
def Expr.piecesAll : List Expr → List (List Operand.Piece)
  | [] => []
  | e :: es => Expr.pieces e :: Expr.piecesAll es

end

/-! ### Residues and groups -/

mutual

/-- What is left of a written operand when its groups are cut out, if quoted parts are counted from
`n` and groups from `g`. -/
def Expr.residue (n g : Nat) : Expr → List CodePoint
  | .literal v type explicit mark => Operand.maskFrom n (Expr.literal v type explicit mark).pieces
  | .path p type mark => Operand.maskFrom n (Expr.path p type mark).pieces
  | .call f args _ _ => Operand.reference f.name (g + (Expr.groupsAll n g args).length)

/-- The groups that are cut out of a written operand, in order. -/
def Expr.groups (n g : Nat) : Expr → List (List CodePoint)
  | .literal .. => []
  | .path .. => []
  | .call _ args _ _ => Expr.groupsAll n g args ++
      [[CodePoint.char '('] ++ [CodePoint.char ','].intercalate (Expr.residues n g args) ++ [.char ')']]

/-- What is left of arguments, each with the numbers that it starts from. -/
def Expr.residues (n g : Nat) : List Expr → List (List CodePoint)
  | [] => []
  | e :: es => Expr.residue n g e ::
      Expr.residues (n + (Operand.quotedParts e.pieces).length) (g + (Expr.groups n g e).length) es

/-- The groups that are cut out of arguments, in order. -/
def Expr.groupsAll (n g : Nat) : List Expr → List (List CodePoint)
  | [] => []
  | e :: es => Expr.groups n g e ++
      Expr.groupsAll (n + (Operand.quotedParts e.pieces).length) (g + (Expr.groups n g e).length) es

end

/-! ### Names and numbers -/

theorem Function.isArgumentText_name (f : Function) : (f.name : Text).IsArgumentText where
  ne_nil := by cases f <;> decide
  trim := by cases f <;> decide
  isUnmarked := by
    unfold Text.IsUnmarked
    cases f <;> decide
  no_comma := by cases f <;> decide

theorem Numeral.isQuote_of_isNumeralChar {c : Char} (hc : IsNumeralChar c) :
    Operand.isQuote (.char c) = false := by
  unfold Operand.isQuote
  rw [Bool.or_eq_false_iff]
  exact ⟨beq_false_of_ne (ne_of_isNumeralChar hc (by decide)),
    beq_false_of_ne (ne_of_isNumeralChar hc (by decide))⟩

/-- The text of a number stands for itself among arguments. -/
theorem Numeral.isArgumentText {s : String} (hs : ∀ c ∈ s.toList, IsNumeralChar c)
    (hne : s.toList ≠ []) : (s : Text).IsArgumentText where
  ne_nil := by simpa [Text.points_ofString] using hne
  trim := by
    refine congrArg Text.mk (Text.trimPoints_of_forall fun c hc => ?_)
    obtain ⟨d, hd, rfl⟩ := List.mem_map.mp hc
    exact isBlank_of_isNumeralChar (hs d hd)
  isUnmarked := by
    intro c hc
    obtain ⟨d, hd, rfl⟩ := List.mem_map.mp hc
    have hnumeral := hs d hd
    exact ⟨isQuote_of_isNumeralChar hnumeral, ne_of_isNumeralChar hnumeral (by decide),
      ne_of_isNumeralChar hnumeral (by decide), ne_of_isNumeralChar hnumeral (by decide),
      ne_of_isNumeralChar hnumeral (by decide)⟩
  no_comma := by
    intro c hc
    obtain ⟨d, hd, rfl⟩ := List.mem_map.mp hc
    exact ne_of_isNumeralChar (hs d hd) (by decide)

theorem Numeral.isArgumentText_ofInt (n : Int) : (Text.ofInt n : Text).IsArgumentText := by
  refine Numeral.isArgumentText (fun c hc => Numeral.isNumeralChar_of_mem_ofInt hc) ?_
  rw [Numeral.toList_ofInt]
  split
  · exact List.cons_ne_nil _ _
  · exact Nat.toDigits_ne_nil

theorem Double.isArgumentText_text {d : Double} (hd : d.IsFinite) :
    (d.text : Text).IsArgumentText := by
  obtain ⟨hchars, hmark⟩ := Double.mem_text hd
  refine Numeral.isArgumentText hchars ?_
  rcases hmark with h | h <;> exact List.ne_nil_of_mem h

/-! ### Literals and paths among arguments -/

/-- The pieces of an argument that is no call: a text that stands for itself, or a text in single
quotes that holds no such quotes and no marks. -/
inductive Operand.IsLeafForm : List Operand.Piece → Prop
  | bare {s : Text} : s.IsArgumentText → IsLeafForm (s.points.map .plain)
  | quoted {s : Text} :
    (∀ c ∈ s.points, c ≠ .char '\'' ∧ c ≠ Operand.groupMark ∧ c ≠ Operand.quoteMark) →
      IsLeafForm [.quoted '\'' s.points]

theorem Expr.isLeafForm_pieces {e : Expr} (he : e.IsArgument) (hleaf : e.IsLiteralOrPath) :
    Operand.IsLeafForm e.pieces := by
  cases e with
  | literal v type explicit mark =>
    cases v
    case int n => exact .bare (Numeral.isArgumentText_ofInt n)
    case double d => exact .bare (Double.isArgumentText_text he.2.1)
    case text s => exact .quoted he.2
    all_goals exact he.elim
  | path p type mark =>
    obtain ⟨s, rfl, hs, -⟩ := he
    exact .bare hs
  | call => exact hleaf.elim

theorem Operand.IsLeafForm.isProper {ps : List Operand.Piece} (h : Operand.IsLeafForm ps) :
    ∀ p ∈ ps, p.IsProper := by
  intro p hp
  cases h with
  | bare hs =>
    obtain ⟨c, hc, rfl⟩ := List.mem_map.mp hp
    exact (hs.isUnmarked c hc).1
  | quoted hs =>
    rw [List.mem_singleton.mp hp]
    exact ⟨by decide, fun hmem => (hs _ hmem).1 rfl⟩

/-- Masked, an argument that is no call holds no parentheses. -/
theorem Operand.IsLeafForm.no_parenthesis {ps : List Operand.Piece} (h : Operand.IsLeafForm ps)
    (n : Nat) : ∀ c ∈ Operand.maskFrom n ps, c ≠ '(' ∧ c ≠ ')' := by
  intro c hc
  cases h with
  | bare hs =>
    rw [Operand.maskFrom_plain] at hc
    exact ⟨(hs.isUnmarked c hc).2.1, (hs.isUnmarked c hc).2.2.1⟩
  | quoted hs =>
    simp only [Operand.maskFrom, List.append_nil, List.mem_append, List.mem_singleton] at hc
    rcases hc with (rfl | hc) | rfl
    · decide
    · obtain ⟨d, hd, rfl⟩ := List.mem_map.mp hc
      have hdigit : Numeral.IsNumeralChar d := .inl (Numeral.isDigit_of_mem_digits hd)
      exact ⟨Numeral.ne_of_isNumeralChar hdigit (by decide),
        Numeral.ne_of_isNumeralChar hdigit (by decide)⟩
    · decide

mutual

/-- The pieces of an argument are those that are found in its text. -/
theorem Expr.isProper_of_mem_pieces :
    ∀ e : Expr, e.IsArgument → ∀ p ∈ e.pieces, p.IsProper
  | .call f args _ _, he, p, hp => by
    rw [Expr.pieces, List.map_append, List.mem_append, List.mem_append, List.mem_append] at hp
    rcases hp with ((hp | hp) | hp) | hp
    · obtain ⟨c, hc, rfl⟩ := List.mem_map.mp hp
      exact (f.isArgumentText_name.isUnmarked c hc).1
    · rw [List.mem_singleton.mp hp]
      exact (by decide : Operand.isQuote '(' = false)
    · rcases Operand.mem_of_mem_intercalate hp with hp | ⟨ps, hps, hp⟩
      · rw [List.mem_singleton.mp hp]
        exact (by decide : Operand.isQuote ',' = false)
      · exact Expr.isProper_of_mem_piecesAll args he ps hps p hp
    · rw [List.mem_singleton.mp hp]
      exact (by decide : Operand.isQuote ')' = false)
  | .literal _ _ _ _, he, p, hp => (Expr.isLeafForm_pieces he trivial).isProper p hp
  | .path _ _ _, he, p, hp => (Expr.isLeafForm_pieces he trivial).isProper p hp

theorem Expr.isProper_of_mem_piecesAll :
    ∀ es : List Expr, Expr.AllArguments es → ∀ ps ∈ Expr.piecesAll es, ∀ p ∈ ps, p.IsProper
  | [], _, ps, hps, _, _ => by cases hps
  | e :: es, he, ps, hps, p, hp => by
    rcases List.mem_cons.mp hps with rfl | hps
    · exact Expr.isProper_of_mem_pieces e he.1 p hp
    · exact Expr.isProper_of_mem_piecesAll es he.2 ps hps p hp

end

/-! ### Cutting -/

/-- A closing parenthesis ends the group that the opening one began. -/
theorem Operand.foldl_step_group {name inner left current : List CodePoint}
    {outer groups cut : List (List CodePoint)} (hname : ∀ c ∈ name, c ≠ '(' ∧ c ≠ ')')
    (hinner : inner.foldl Cutting.step ⟨(name.reverse ++ current) :: outer, [], groups⟩ =
      ⟨(name.reverse ++ current) :: outer, left.reverse, cut.reverse ++ groups⟩) :
    (name ++ [CodePoint.char '('] ++ inner ++ [CodePoint.char ')']).foldl Cutting.step
        ⟨outer, current, groups⟩ =
      ⟨outer, (name ++ groupMark :: (Text.digits (groups.length + cut.length)).map .char).reverse ++
        current, (cut ++ [[CodePoint.char '('] ++ left ++ [CodePoint.char ')']]).reverse ++ groups⟩ := by
  have hopen : Cutting.step ⟨outer, name.reverse ++ current, groups⟩ '(' =
      ⟨(name.reverse ++ current) :: outer, [], groups⟩ := if_pos rfl
  -- The group that ends here comes after those inside it, which gives it its number.
  have hclose : Cutting.step ⟨(name.reverse ++ current) :: outer, left.reverse, cut.reverse ++ groups⟩
      ')' = ⟨outer, (Text.digits (cut.reverse ++ groups).length).reverse.map .char ++ [groupMark] ++
        (name.reverse ++ current),
        ([CodePoint.char '('] ++ left.reverse.reverse ++ [CodePoint.char ')']) ::
          (cut.reverse ++ groups)⟩ := by
    rw [Cutting.step, if_neg (by decide), if_pos rfl]
  have hlength : (cut.reverse ++ groups).length = groups.length + cut.length := by
    rw [List.length_append, List.length_reverse, Nat.add_comm]
  rw [List.foldl_append, List.foldl_append, List.foldl_append, foldl_step_of_no_parenthesis hname]
  show Cutting.step (inner.foldl Cutting.step (Cutting.step ⟨outer, name.reverse ++ current, groups⟩
    '(')) ')' = _
  rw [hopen, hinner, hclose, hlength, List.reverse_reverse]
  simp

/-- The residues of two or more arguments, with commas between them. -/
theorem Expr.intercalate_residues (n g : Nat) (e e' : Expr) (es : List Expr) :
    [CodePoint.char ','].intercalate (Expr.residues n g (e :: e' :: es)) =
      e.residue n g ++ [CodePoint.char ','] ++ [CodePoint.char ','].intercalate
        (Expr.residues (n + (Operand.quotedParts e.pieces).length) (g + (e.groups n g).length)
          (e' :: es)) :=
  List.intercalate_cons_cons

/-- The pieces of two or more arguments, with commas between them. -/
theorem Expr.intercalate_piecesAll (e e' : Expr) (es : List Expr) :
    [Operand.Piece.plain ','].intercalate (Expr.piecesAll (e :: e' :: es)) =
      e.pieces ++ [Operand.Piece.plain ','] ++
        [Operand.Piece.plain ','].intercalate (Expr.piecesAll (e' :: es)) :=
  List.intercalate_cons_cons

/-- The quoted parts of arguments, one argument after the other. -/
theorem Expr.quotedParts_piecesAll (e : Expr) (es : List Expr) :
    Operand.quotedParts ([Operand.Piece.plain ','].intercalate (Expr.piecesAll (e :: es))) =
      Operand.quotedParts e.pieces ++
        Operand.quotedParts ([Operand.Piece.plain ','].intercalate (Expr.piecesAll es)) := by
  cases es with
  | nil =>
    have hone : [Operand.Piece.plain ','].intercalate (Expr.piecesAll [e]) = e.pieces :=
      List.intercalate_singleton
    rw [hone]
    exact (List.append_nil _).symm
  | cons e' es =>
    rw [Expr.intercalate_piecesAll, Operand.quotedParts_append, Operand.quotedParts_append,
      List.append_assoc]
    rfl

theorem Expr.quotedParts_call (f : Function) (args : List Expr) (type : Option TypeRef) (mark : Mark) :
    Operand.quotedParts (Expr.call f args type mark).pieces =
      Operand.quotedParts ([Operand.Piece.plain ','].intercalate (Expr.piecesAll args)) := by
  rw [Expr.pieces, Operand.quotedParts_append, Operand.quotedParts_append, Operand.quotedParts_plain]
  exact List.append_nil _

mutual

/-- **Cutting a written argument** out of any text leaves its residue and adds its groups. -/
theorem Expr.foldl_step_residue : ∀ (e : Expr) (n : Nat) (outer : List (List CodePoint))
    (current : List CodePoint) (groups : List (List CodePoint)), e.IsArgument →
      (Operand.maskFrom n e.pieces).foldl Operand.Cutting.step ⟨outer, current, groups⟩ =
        ⟨outer, (e.residue n groups.length).reverse ++ current,
          (e.groups n groups.length).reverse ++ groups⟩
  | .literal v type explicit mark, n, outer, current, groups, he => by
    have hleaf := Expr.isLeafForm_pieces he trivial
    exact Operand.foldl_step_of_no_parenthesis (hleaf.no_parenthesis n) _
  | .path p type mark, n, outer, current, groups, he => by
    have hleaf := Expr.isLeafForm_pieces he trivial
    exact Operand.foldl_step_of_no_parenthesis (hleaf.no_parenthesis n) _
  | .call f args type mark, n, outer, current, groups, he => by
    have hname : ∀ c ∈ (f.name : Text).points, c ≠ '(' ∧ c ≠ ')' := fun c hc =>
      ⟨(f.isArgumentText_name.isUnmarked c hc).2.1, (f.isArgumentText_name.isUnmarked c hc).2.2.1⟩
    have hmask : Operand.maskFrom n (Expr.call f args type mark).pieces =
        (f.name : Text).points ++ [CodePoint.char '('] ++
          Operand.maskFrom n ([Operand.Piece.plain ','].intercalate (Expr.piecesAll args)) ++
            [CodePoint.char ')'] := by
      rw [Expr.pieces, Operand.maskFrom_append, Operand.maskFrom_append, Operand.maskFrom_plain,
        Operand.quotedParts_plain]
      rfl
    -- Inside the parentheses the text around the call waits on the stack.
    have hinner := Expr.foldl_step_residues args n (((f.name : Text).points.reverse ++ current) :: outer)
      [] groups he
    rw [List.append_nil] at hinner
    rw [hmask, Operand.foldl_step_group hname hinner]
    rfl

theorem Expr.foldl_step_residues : ∀ (es : List Expr) (n : Nat) (outer : List (List CodePoint))
    (current : List CodePoint) (groups : List (List CodePoint)), Expr.AllArguments es →
      (Operand.maskFrom n ([Operand.Piece.plain ','].intercalate (Expr.piecesAll es))).foldl
          Operand.Cutting.step ⟨outer, current, groups⟩ =
        ⟨outer, ([CodePoint.char ','].intercalate (Expr.residues n groups.length es)).reverse ++ current,
          (Expr.groupsAll n groups.length es).reverse ++ groups⟩
  | [], n, outer, current, groups, _ => rfl
  | [e], n, outer, current, groups, he => by
    have hfirst := Expr.foldl_step_residue e n outer current groups he.1
    rw [Expr.piecesAll, Expr.piecesAll, List.intercalate_singleton, hfirst]
    simp [Expr.residues, Expr.groupsAll]
  | e :: e' :: es, n, outer, current, groups, he => by
    have hfirst := Expr.foldl_step_residue e n outer current groups he.1
    have hcomma : ∀ s : Operand.Cutting, s.step ',' = { s with current := .char ',' :: s.current } :=
      fun s => by rw [Operand.Cutting.step, if_neg (by decide), if_neg (by decide)]
    have hmask : Operand.maskFrom n ([Operand.Piece.plain ','].intercalate
        (Expr.piecesAll (e :: e' :: es))) = Operand.maskFrom n e.pieces ++ [CodePoint.char ','] ++
          Operand.maskFrom (n + (Operand.quotedParts e.pieces).length)
            ([Operand.Piece.plain ','].intercalate (Expr.piecesAll (e' :: es))) := by
      rw [Expr.intercalate_piecesAll, Operand.maskFrom_append, Operand.maskFrom_append,
        Operand.quotedParts_append, List.length_append]
      rfl
    -- The other arguments are counted on from the quoted parts and groups of the first one.
    have hrest := Expr.foldl_step_residues (e' :: es) (n + (Operand.quotedParts e.pieces).length) outer
      (.char ',' :: ((e.residue n groups.length).reverse ++ current))
      ((e.groups n groups.length).reverse ++ groups) he.2
    have hlength : ((e.groups n groups.length).reverse ++ groups).length =
        groups.length + (e.groups n groups.length).length := by
      rw [List.length_append, List.length_reverse, Nat.add_comm]
    rw [hlength] at hrest
    rw [hmask, List.foldl_append, List.foldl_append, hfirst, List.foldl_cons, List.foldl_nil, hcomma,
      hrest, Expr.intercalate_residues]
    show _ = Operand.Cutting.mk outer _
      ((e.groups n groups.length ++ Expr.groupsAll _ _ (e' :: es)).reverse ++
      groups)
    simp

end

/-- **The linear form of a written argument**: its residue, its groups and its quoted parts. -/
theorem Expr.linear_ofText {e : Expr} (he : e.IsArgument) :
    Operand.Linear.ofText (e.pieces.flatMap Operand.Piece.chars) =
      ⟨e.residue 0 0, e.groups 0 0, Operand.quotedParts e.pieces⟩ := by
  have hpieces : Operand.pieces (e.pieces.flatMap Operand.Piece.chars) = e.pieces :=
    Operand.pieces_chars (Expr.isProper_of_mem_pieces e he)
  -- A written operand leaves the stack as it was, so cutting ends with no parenthesis open.
  have hcut := Expr.foldl_step_residue e 0 [] [] [] he
  unfold Operand.Linear.ofText
  dsimp only
  rw [hpieces, hcut]
  simp [Operand.Cutting.rest]

end RecordFilter
