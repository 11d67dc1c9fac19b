import RecordFilter.Proofs.Number.Written
import RecordFilter.Proofs.Operand.References
import RecordFilter.Proofs.Operand.Rereading

/-!
# Taking operand texts apart

Each step of the linear form undoes a step of writing, on texts that are put together from proper
parts. Pieces are found again in the text of their characters (`Operand.pieces_chars`), the number of
a quoted part between two marks is replaced by this part (`Operand.Unmasks.of_getElem?`), and arguments
joined by commas are split into these arguments (`Operand.arguments_intercalate`).
-/

namespace RecordFilter.Operand

/-! ### Pieces -/

/-- The piece is what reading finds in its text: a character that is no quote, or a part between two
quotes that do not occur in it. -/
def Piece.IsProper : Piece → Prop
  | .plain c => isQuote c = false
  | .quoted q inside => isQuote q = true ∧ q ∉ inside

theorem piecesFrom_quoted {q : CodePoint} {inside : List CodePoint} (hq : q ∉ inside)
    (acc cs : List CodePoint) :
    piecesFrom (some (q, acc)) (inside ++ q :: cs) =
      .quoted q (acc.reverse ++ inside) :: piecesFrom none cs := by
  induction inside generalizing acc with
  | nil => rw [List.nil_append, piecesFrom, if_pos rfl, List.append_nil]
  | cons c inside ih =>
    obtain ⟨hc, hinside⟩ := not_or.mp (mt List.mem_cons.mpr hq)
    rw [List.cons_append, piecesFrom, if_neg (Ne.symm hc), ih hinside, List.reverse_cons,
      List.append_assoc, List.singleton_append]

/-- **Proper pieces are found again** in the text of their characters. -/
theorem pieces_chars {ps : List Piece} (h : ∀ p ∈ ps, p.IsProper) :
    pieces (ps.flatMap Piece.chars) = ps := by
  unfold pieces
  induction ps with
  | nil => rfl
  | cons p ps ih =>
    have hrest := ih fun p' hp' => h p' (List.mem_cons_of_mem _ hp')
    have hp := h p List.mem_cons_self
    rw [List.flatMap_cons]
    cases p with
    | plain c =>
      have hc : isQuote c = false := hp
      show piecesFrom none (c :: ps.flatMap Piece.chars) = _
      rw [piecesFrom, if_neg (by simp [hc]), hrest]
    | quoted q inside =>
      obtain ⟨hq, hinside⟩ := hp
      have hchars : (Piece.quoted q inside).chars ++ ps.flatMap Piece.chars =
          q :: (inside ++ q :: ps.flatMap Piece.chars) := by
        simp [Piece.chars]
      rw [hchars, piecesFrom, if_pos (by simp [hq]), piecesFrom_quoted hinside, hrest,
        List.reverse_nil, List.nil_append]

theorem chars_plain (cs : List CodePoint) : (cs.map Piece.plain).flatMap Piece.chars = cs := by
  simp [List.flatMap_map, Piece.chars]

/-! ### Masking -/

theorem quotedParts_append (ps qs : List Piece) :
    quotedParts (ps ++ qs) = quotedParts ps ++ quotedParts qs := by
  induction ps with
  | nil => rfl
  | cons p ps ih =>
    cases p with
    | plain c => exact ih
    | quoted q inside => exact congrArg (_ :: ·) ih

theorem quotedParts_plain (cs : List CodePoint) : quotedParts (cs.map .plain) = [] := by
  induction cs with
  | nil => rfl
  | cons c cs ih => exact ih

theorem maskFrom_append (n : Nat) (ps qs : List Piece) :
    maskFrom n (ps ++ qs) = maskFrom n ps ++ maskFrom (n + (quotedParts ps).length) qs := by
  induction ps generalizing n with
  | nil => rfl
  | cons p ps ih =>
    cases p with
    | plain c => exact congrArg (c :: ·) (ih n)
    | quoted q inside =>
      have hcount : n + (quotedParts (.quoted q inside :: ps)).length =
          n + 1 + (quotedParts ps).length := by
        show n + ((quotedParts ps).length + 1) = _
        omega
      rw [hcount, List.cons_append, maskFrom, maskFrom, ih (n + 1)]
      simp only [List.append_assoc]

theorem length_quotedParts_le (ps : List Piece) :
    (quotedParts ps).length ≤ (ps.flatMap Piece.chars).length := by
  induction ps with
  | nil => exact Nat.le_refl _
  | cons p ps ih =>
    rw [List.flatMap_cons, List.length_append]
    cases p with
    | plain c =>
      rw [quotedParts]
      omega
    | quoted q inside =>
      have hone : 1 ≤ (Piece.quoted q inside).chars.length := by simp [Piece.chars]
      show (quotedParts ps).length + 1 ≤ _
      omega

/-! ### Putting quoted parts back -/

/-- Putting the quoted parts back makes `u` of `cs`, whatever follows. -/
def Unmasks (quoted : List (List CodePoint)) (cs u : List CodePoint) : Prop :=
  ∀ rest, unmask quoted (cs ++ rest) = (unmask quoted rest).map (u ++ ·)

namespace Unmasks

variable {quoted : List (List CodePoint)} {cs ds u v : List CodePoint}

theorem unmask_eq (h : Unmasks quoted cs u) : unmask quoted cs = .ok u := by
  have hnil := h []
  rw [List.append_nil] at hnil
  rw [hnil]
  exact congrArg Except.ok (List.append_nil u)

theorem of_not_mem (h : ∀ c ∈ cs, c ≠ quoteMark) : Unmasks quoted cs cs :=
  fun _ => unmaskFrom_append h

theorem append (h : Unmasks quoted cs u) (h' : Unmasks quoted ds v) :
    Unmasks quoted (cs ++ ds) (u ++ v) := by
  intro rest
  rw [List.append_assoc, h, h']
  rcases unmask quoted rest with f | w
  · rfl
  · exact congrArg Except.ok (List.append_assoc u v w).symm

end Unmasks

theorem foldl_digitValue {ds : List Char} (hds : ∀ c ∈ ds, c.isDigit) (m : Nat) :
    (ds.map CodePoint.char).foldl (fun n c => 10 * n + (Text.digitValue? c.toChar).getD 0) m =
      ds.foldl (fun n c => 10 * n + (c.toNat - 48)) m := by
  induction ds generalizing m with
  | nil => rfl
  | cons d ds ih =>
    have hd := (Numeral.digitValue?_of_isDigit (hds d List.mem_cons_self)).1
    rw [List.map_cons, List.foldl_cons, List.foldl_cons]
    show List.foldl _ (10 * m + (Text.digitValue? d).getD 0) _ = _
    rw [hd, Option.getD_some]
    exact ih (fun c hc => hds c (List.mem_cons_of_mem _ hc)) _

theorem number_digits {n : Nat} (hn : (Text.digits n).length ≤ Numeral.maxIntDigits) :
    number ((Text.digits n).map .char) = .ok n := by
  have hlength : ¬ Numeral.maxIntDigits < ((Text.digits n).map CodePoint.char).length := by
    rw [List.length_map]
    omega
  show (if Numeral.maxIntDigits < _ then _ else _) = _
  rw [if_neg hlength, foldl_digitValue fun c hc => Numeral.isDigit_of_mem_digits hc]
  exact congrArg Except.ok (Numeral.valueOf_digits n)

theorem unmaskFrom_digits {quoted : List (List CodePoint)} {ds : List Char}
    (hds : ∀ c ∈ ds, c.isDigit) (acc rest : List CodePoint) :
    unmaskFrom quoted (some acc) (ds.map CodePoint.char ++ rest) =
      unmaskFrom quoted (some ((ds.map CodePoint.char).reverse ++ acc)) rest := by
  induction ds generalizing acc with
  | nil => rfl
  | cons d ds ih =>
    have hd : Text.isDecimalDigit (CodePoint.char d).toChar = true := by
      show (Text.digitValue? d).isSome = true
      rw [(Numeral.digitValue?_of_isDigit (hds d List.mem_cons_self)).1]
      rfl
    rw [List.map_cons, List.cons_append, unmaskFrom, if_pos hd,
      ih fun c hc => hds c (List.mem_cons_of_mem _ hc), List.reverse_cons, List.append_assoc,
      List.singleton_append]

/-- The number of a quoted part between its marks becomes this part. -/
theorem Unmasks.of_getElem? {quoted : List (List CodePoint)} {part : List CodePoint} {n : Nat}
    (hpart : quoted[n]? = some part) (hn : (Text.digits n).length ≤ Numeral.maxIntDigits) :
    Unmasks quoted ([quoteMark] ++ (Text.digits n).map .char ++ [quoteMark]) part := by
  intro rest
  have hempty : ((Text.digits n).map CodePoint.char).reverse.isEmpty = false := by
    rw [List.isEmpty_reverse, List.isEmpty_map, List.isEmpty_eq_false_iff]
    exact Nat.toDigits_ne_nil
  have hlookup : quotedPart quoted ((Text.digits n).map CodePoint.char) = .ok part := by
    unfold quotedPart
    rw [number_digits hn, ok_bind, hpart]
    rfl
  have hmark : Text.isDecimalDigit quoteMark.toChar = false := by decide
  have hshape : [quoteMark] ++ (Text.digits n).map .char ++ [quoteMark] ++ rest =
      quoteMark :: ((Text.digits n).map .char ++ quoteMark :: rest) := by simp
  show unmaskFrom quoted none _ = _
  -- The digits between the marks are collected, and at the second mark they are looked up.
  rw [hshape, unmaskFrom, if_pos rfl, unmaskFrom_digits fun c hc => Numeral.isDigit_of_mem_digits hc,
    List.append_nil, unmaskFrom, hmark, if_neg Bool.false_ne_true, if_pos rfl, hempty,
    if_neg Bool.false_ne_true, List.reverse_reverse, hlookup, ok_bind]
  unfold unmask
  rcases unmaskFrom quoted none rest with f | w <;> rfl

/-! ### References -/

/-- A text in front of a mark is split off. -/
theorem split_append {mark : CodePoint} {cs : List CodePoint} (h : ∀ c ∈ cs, c ≠ mark)
    (rest : List CodePoint) : Text.split mark (cs ++ mark :: rest) = cs :: Text.split mark rest := by
  induction cs with
  | nil => rw [List.nil_append, Text.split, if_pos rfl]
  | cons c cs ih =>
    rw [List.cons_append, Text.split, if_neg (h c List.mem_cons_self),
      ih fun d hd => h d (List.mem_cons_of_mem _ hd)]

/-- A text without marks joins the first piece of what follows it. -/
theorem split_append_of_not_mem {mark : CodePoint} {cs rest p : List CodePoint}
    {ps : List (List CodePoint)} (h : ∀ c ∈ cs, c ≠ mark) (hrest : Text.split mark rest = p :: ps) :
    Text.split mark (cs ++ rest) = (cs ++ p) :: ps := by
  induction cs with
  | nil => exact hrest
  | cons c cs ih =>
    rw [List.cons_append, Text.split, if_neg (h c List.mem_cons_self),
      ih fun d hd => h d (List.mem_cons_of_mem _ hd)]
    rfl

/-- A text is one piece, or it is split at its first mark. -/
theorem split_cases (mark : CodePoint) (cs : List CodePoint) :
    (mark ∉ cs ∧ Text.split mark cs = [cs]) ∨
      ∃ front rest, cs = front ++ mark :: rest ∧ mark ∉ front ∧
        Text.split mark cs = front :: Text.split mark rest := by
  have hne : ∀ {ds : List CodePoint}, mark ∉ ds → ∀ d ∈ ds, d ≠ mark := by
    rintro ds hds d hd rfl
    exact hds hd
  by_cases h : mark ∈ cs
  · obtain ⟨front, rest, rfl, hfront⟩ := List.eq_append_cons_of_mem h
    exact .inr ⟨front, rest, rfl, hfront, split_append (hne hfront) rest⟩
  · exact .inl ⟨h, split_of_not_mem (hne h)⟩

theorem not_mem_of_tail_split {mark : CodePoint} {cs : List CodePoint}
    (h : (Text.split mark cs).tail = []) : mark ∉ cs := by
  rcases split_cases mark cs with ⟨hcs, -⟩ | ⟨front, rest, -, -, hsplit⟩
  · exact hcs
  · rw [hsplit] at h
    exact (Text.split_ne_nil _ _ h).elim

/-- The name of a call with the number of the group of its arguments. -/
def reference (name : String) (k : Nat) : List CodePoint :=
  (name : Text).points ++ groupMark :: (Text.digits k).map .char

theorem split_reference {name : String} (hname : ∀ c ∈ (name : Text).points, c ≠ groupMark)
    (k : Nat) : Text.split groupMark (reference name k) =
      [(name : Text).points, (Text.digits k).map .char] := by
  unfold reference
  rw [split_append hname, split_of_not_mem fun c hc => (groupMark_ne_of_mem_digits hc).1]

/-! ### Arguments -/

/-- The text is one argument among others: either it begins with no blank and holds neither quotes
nor commas, or it stands in single quotes. -/
def IsArgument (cs : List CodePoint) : Prop :=
  (∃ c rest, cs = c :: rest ∧ Text.isBlank c = false ∧ ∀ d ∈ cs, isQuote d = false ∧ d ≠ ',') ∨
    ∃ inside, cs = .char '\'' :: (inside ++ [.char '\'']) ∧ CodePoint.char '\'' ∉ inside

section

variable {quote : CodePoint}

theorem startsQuoted_cons {c : CodePoint} {cs : List CodePoint} (hblank : Text.isBlank c = false)
    (hc : c ≠ quote) : startsQuoted quote (c :: cs) = false := by
  unfold startsQuoted
  rw [List.dropWhile_cons_of_neg (by simp [hblank])]
  simp [hc]

theorem splitFrom_plain {cs : List CodePoint} (h : ∀ c ∈ cs, c ≠ ',') (acc rest : List CodePoint) :
    splitFrom quote (.plain acc) (cs ++ rest) = splitFrom quote (.plain (cs.reverse ++ acc)) rest := by
  induction cs generalizing acc with
  | nil => rfl
  | cons c cs ih =>
    rw [List.cons_append, splitFrom, if_neg (h c List.mem_cons_self),
      ih fun d hd => h d (List.mem_cons_of_mem _ hd)]
    simp

theorem splitFrom_quoted {inside : List CodePoint} (h : quote ∉ inside) (acc rest : List CodePoint) :
    splitFrom quote (.quoted true acc) (inside ++ quote :: rest) =
      (acc.reverse ++ inside ++ [quote]) :: splitFrom quote .between rest := by
  induction inside generalizing acc with
  | nil => simp [splitFrom]
  | cons c inside ih =>
    obtain ⟨hc, hinside⟩ := not_or.mp (mt List.mem_cons.mpr h)
    rw [List.cons_append, splitFrom, if_neg (Ne.symm hc), ih hinside]
    simp

/-- The argument is split off from what follows it, together with the comma behind it. -/
def SplitsOff (quote : CodePoint) (t : List CodePoint) : Prop :=
  splitFrom quote .between t = [t] ∧ ∀ rest,
    splitFrom quote .between (t ++ .char ',' :: rest) = t :: splitFrom quote .between rest

theorem SplitsOff.of_no_comma {c : CodePoint} {cs : List CodePoint}
    (hblank : Text.isBlank c = false) (hquote : c ≠ quote) (hcomma : ∀ d ∈ c :: cs, d ≠ ',') :
    SplitsOff quote (c :: cs) := by
  have hstart : ∀ rest, splitFrom quote .between (c :: (cs ++ rest)) =
      splitFrom quote (.plain (cs.reverse ++ [c])) rest := by
    intro rest
    rw [splitFrom, startsQuoted_cons hblank hquote, if_neg Bool.false_ne_true,
      if_neg (hcomma c List.mem_cons_self),
      splitFrom_plain fun d hd => hcomma d (List.mem_cons_of_mem _ hd)]
  constructor
  · have hend := hstart []
    rw [List.append_nil] at hend
    rw [hend, splitFrom]
    simp
  · intro rest
    rw [List.cons_append, hstart, splitFrom, if_pos rfl]
    simp

theorem isBlank_of_isQuote {c : CodePoint} (h : isQuote c = true) : Text.isBlank c = false := by
  simp only [isQuote, Bool.or_eq_true, beq_iff_eq] at h
  rcases h with rfl | rfl <;> decide

theorem SplitsOff.of_quoted {inside : List CodePoint} (hquote : isQuote quote = true)
    (hinside : quote ∉ inside) : SplitsOff quote (quote :: (inside ++ [quote])) := by
  have hstart : ∀ rest, splitFrom quote .between (quote :: (inside ++ [quote] ++ rest)) =
      (quote :: (inside ++ [quote])) :: splitFrom quote .between rest := by
    intro rest
    have hquoted : startsQuoted quote (quote :: (inside ++ [quote] ++ rest)) = true := by
      unfold startsQuoted
      rw [List.dropWhile_cons_of_neg (by simp [isBlank_of_isQuote hquote])]
      simp
    have hsame : (quote == quote) = true := beq_self_eq_true _
    rw [splitFrom, hquoted, if_pos rfl, List.append_assoc, List.singleton_append, hsame,
      splitFrom_quoted hinside]
    simp
  constructor
  · have hend := hstart []
    rw [List.append_nil] at hend
    rw [hend, splitFrom]
  · intro rest
    -- The comma behind a quoted argument stands between arguments and is passed over.
    have hne : CodePoint.char ',' ≠ quote := by
      rintro rfl
      exact absurd hquote (by decide)
    have hcomma : splitFrom quote .between (.char ',' :: rest) = splitFrom quote .between rest := by
      rw [splitFrom, startsQuoted_cons (by decide) hne, if_neg Bool.false_ne_true, if_pos rfl]
    rw [List.cons_append, hstart, hcomma]

theorem IsArgument.splitsOff {t : List CodePoint} (ht : IsArgument t) (hquote : isQuote quote = true)
    (hkind : quote = .char '\'' ∨ ∀ c ∈ t, isQuote c = false) : SplitsOff quote t := by
  rcases ht with ⟨c, cs, rfl, hblank, hplain⟩ | ⟨inside, rfl, hinside⟩
  · have hc : c ≠ quote := by
      rintro rfl
      rw [(hplain c List.mem_cons_self).1] at hquote
      cases hquote
    exact .of_no_comma hblank hc fun d hd => (hplain d hd).2
  · have hsingle : quote = .char '\'' := by
      refine hkind.resolve_right fun h => ?_
      exact absurd (h _ List.mem_cons_self) (by decide)
    subst hsingle
    exact .of_quoted (by decide) hinside

theorem splitFrom_intercalate {ts : List (List CodePoint)} (hquote : isQuote quote = true)
    (h : ∀ t ∈ ts, IsArgument t)
    (hkind : quote = .char '\'' ∨ ∀ t ∈ ts, ∀ c ∈ t, isQuote c = false) :
    splitFrom quote .between ([CodePoint.char ','].intercalate ts) = ts := by
  induction ts with
  | nil => rfl
  | cons t ts ih =>
    obtain ⟨hlast, hmore⟩ := (h t List.mem_cons_self).splitsOff hquote
      (hkind.imp_right fun hkind => hkind t List.mem_cons_self)
    cases ts with
    | nil => simpa using hlast
    | cons t' ts =>
      have hrest := ih (fun t ht => h t (List.mem_cons_of_mem _ ht))
        (hkind.imp_right fun hkind t ht => hkind t (List.mem_cons_of_mem _ ht))
      rw [List.intercalate_cons_cons, List.append_assoc, List.singleton_append, hmore, hrest]

end

theorem infix_intercalate {α : Type} {sep t : List α} {ts : List (List α)} (ht : t ∈ ts) :
    t <:+: sep.intercalate ts := by
  induction ts with
  | nil => cases ht
  | cons t' ts ih =>
    cases ts with
    | nil =>
      rw [List.intercalate_singleton, List.mem_singleton.mp ht]
    | cons t'' ts =>
      rw [List.intercalate_cons_cons]
      rcases List.mem_cons.mp ht with rfl | ht
      · exact ((List.prefix_append t sep).trans (List.prefix_append _ _)).isInfix
      · exact (ih ht).trans (List.suffix_append _ _).isInfix

theorem mem_intercalate {α : Type} {sep t : List α} {ts : List (List α)} {a : α} (ha : a ∈ t)
    (ht : t ∈ ts) : a ∈ sep.intercalate ts :=
  (infix_intercalate ht).mem ha

theorem mem_of_mem_intercalate {α : Type} {sep : List α} {ts : List (List α)} {a : α}
    (h : a ∈ sep.intercalate ts) : a ∈ sep ∨ ∃ t ∈ ts, a ∈ t := by
  induction ts with
  | nil => cases h
  | cons t ts ih =>
    cases ts with
    | nil =>
      rw [List.intercalate_singleton] at h
      exact .inr ⟨t, List.mem_cons_self, h⟩
    | cons t' ts =>
      rw [List.intercalate_cons_cons, List.mem_append, List.mem_append] at h
      rcases h with (h | h) | h
      · exact .inr ⟨t, List.mem_cons_self, h⟩
      · exact .inl h
      · exact (ih h).imp_right fun ⟨u, hu, ha⟩ => ⟨u, List.mem_cons_of_mem _ hu, ha⟩

/-- **Arguments that are joined by commas are split into these arguments.** -/
theorem arguments_intercalate {ts : List (List CodePoint)} (h : ∀ t ∈ ts, IsArgument t) :
    arguments ([CodePoint.char ','].intercalate ts) = ts := by
  unfold arguments
  split
  · exact splitFrom_intercalate (by decide) h (.inl rfl)
  · rename_i hnone
    -- Without single quotes no argument stands in quotes, so double quotes cannot occur either.
    refine splitFrom_intercalate (by decide) h (.inr fun t ht c hc => ?_)
    rcases h t ht with ⟨_, _, -, -, hplain⟩ | ⟨inside, rfl, -⟩
    · exact (hplain c hc).1
    · exact (hnone (List.contains_iff_mem.mpr (mem_intercalate List.mem_cons_self ht))).elim

end RecordFilter.Operand
