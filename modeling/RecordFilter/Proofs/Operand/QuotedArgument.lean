import RecordFilter.Proofs.Operand.CallRoundTrip

/-!
# Quoted arguments

A text in quotes that is the only argument of a call is masked while the groups are cut out, but put
back before the arguments are split and before marks are looked for in them. So three things in it still
matter: the mark of a group, a number between quote marks, and a comma in double quotes next to a single
quote. A quoted text without these is read as the literal that it denotes, and no other is
(`Operand.quoted_argument_iff`).
-/

namespace RecordFilter.Operand

/-! ### Numbers between quote marks -/

/-- The text is a number between quote marks, as a quoted part is masked by. -/
def IsNumbered (cs : List CodePoint) : Prop :=
  ∃ ds, cs = quoteMark :: (ds ++ [quoteMark]) ∧ ds ≠ [] ∧ ∀ d ∈ ds, Text.isDecimalDigit d.toChar

/-- Somewhere in the text a number stands between quote marks. -/
def HoldsNumbered (cs : List CodePoint) : Prop :=
  ∃ part, IsNumbered part ∧ part <:+: cs

theorem quoteMark_ne_of_isDecimalDigit {d : CodePoint} (hd : Text.isDecimalDigit d.toChar) :
    d ≠ quoteMark := by
  rintro rfl
  exact absurd hd (by decide)

theorem not_holdsNumbered_nil : ¬ HoldsNumbered [] := by
  rintro ⟨part, ⟨ds, rfl, -⟩, h⟩
  exact List.cons_ne_nil _ _ (List.infix_nil.mp h)

theorem holdsNumbered_cons {c : CodePoint} (hc : c ≠ quoteMark) (cs : List CodePoint) :
    HoldsNumbered (c :: cs) ↔ HoldsNumbered cs := by
  constructor
  · rintro ⟨part, hpart, h⟩
    rcases List.infix_cons_iff.mp h with h | h
    · obtain ⟨ds, rfl, -⟩ := hpart
      exact absurd (List.cons_prefix_cons.mp h).1.symm hc
    · exact ⟨part, hpart, h⟩
  · rintro ⟨part, hpart, h⟩
    exact ⟨part, hpart, h.trans (List.suffix_cons c cs).isInfix⟩

theorem holdsNumbered_append {ds : List CodePoint} (hds : ∀ d ∈ ds, d ≠ quoteMark)
    (cs : List CodePoint) : HoldsNumbered (ds ++ cs) ↔ HoldsNumbered cs := by
  induction ds with
  | nil => exact Iff.rfl
  | cons d ds ih =>
    rw [List.cons_append, holdsNumbered_cons (hds d List.mem_cons_self),
      ih fun e he => hds e (List.mem_cons_of_mem _ he)]

/-- Digits after a quote mark that no second mark ends are no number between marks. -/
theorem holdsNumbered_open {ds cs : List CodePoint} (hds : ∀ d ∈ ds, Text.isDecimalDigit d.toChar)
    (hcs : ∀ c ∈ cs.head?, ¬ Text.isDecimalDigit c.toChar ∧ (c = quoteMark → ds = [])) :
    HoldsNumbered (quoteMark :: (ds ++ cs)) ↔ HoldsNumbered cs := by
  have hrest := holdsNumbered_append (fun d hd => quoteMark_ne_of_isDecimalDigit (hds d hd)) cs
  constructor
  · rintro ⟨part, hpart, h⟩
    rcases List.infix_cons_iff.mp h with h | h
    · -- The digits of the number are those at the beginning, so the mark behind them is the next one.
      obtain ⟨digits, rfl, hne, hdigits⟩ := hpart
      obtain ⟨more, hmore⟩ := (List.cons_prefix_cons.mp h).2
      have hmark : Text.isDecimalDigit quoteMark.toChar = false := by decide
      have hstop : cs.takeWhile (fun c => Text.isDecimalDigit c.toChar) = [] := by
        cases cs with
        | nil => rfl
        | cons c cs => exact List.takeWhile_cons_of_neg (hcs c rfl).1
      have hsame : digits = ds := by
        have htake := congrArg (List.takeWhile fun c => Text.isDecimalDigit c.toChar) hmore
        rw [List.append_assoc, List.takeWhile_append_of_pos hdigits, List.takeWhile_append_of_pos hds,
          hstop, List.singleton_append, List.takeWhile_cons_of_neg (by simp [hmark])] at htake
        simpa using htake
      subst hsame
      rw [List.append_assoc, List.append_cancel_left_eq] at hmore
      subst hmore
      exact (hne ((hcs quoteMark rfl).2 rfl)).elim
    · exact hrest.mp ⟨part, hpart, h⟩
  · intro h
    obtain ⟨part, hpart, hinside⟩ := hrest.mpr h
    exact ⟨part, hpart, hinside.trans (List.suffix_cons _ _).isInfix⟩

/-- The text that was read since a quote mark that may be the left one of a pair. -/
def sinceMark : Option (List CodePoint) → List CodePoint
  | none => []
  | some ds => quoteMark :: ds.reverse

theorem append_eq_ok_iff {x : Except Fault (List CodePoint)} (front u : List CodePoint) :
    (do return front ++ (← x)) = Except.ok (front ++ u) ↔ x = .ok u := by
  rcases x with f | v
  · exact ⟨fun h => (nomatch h), fun h => (nomatch h)⟩
  · show Except.ok (front ++ v) = Except.ok (front ++ u) ↔ _
    simp

/-- **Putting quoted parts back** into a text that is shorter than each of them leaves the text as it is
exactly when no number stands between quote marks in it. -/
theorem unmaskFrom_eq_self_iff {quoted : List (List CodePoint)} {open? : Option (List CodePoint)}
    {cs : List CodePoint} (hopen : ∀ ds, open? = some ds → ∀ d ∈ ds, Text.isDecimalDigit d.toChar)
    (hquoted : ∀ part ∈ quoted, (sinceMark open? ++ cs).length < part.length) :
    unmaskFrom quoted open? cs = .ok (sinceMark open? ++ cs) ↔
      ¬ HoldsNumbered (sinceMark open? ++ cs) := by
  have hshorter : ∀ {xs ys : List CodePoint}, ys <:+ xs →
      (∀ part ∈ quoted, xs.length < part.length) → ∀ part ∈ quoted, ys.length < part.length :=
    fun hsuffix h part hpart => Nat.lt_of_le_of_lt hsuffix.length_le (h part hpart)
  fun_induction unmaskFrom quoted open? cs with
  | case1 => exact iff_of_true rfl not_holdsNumbered_nil
  | case2 ds =>
    refine iff_of_true (congrArg Except.ok (List.append_nil _).symm) ?_
    show ¬ HoldsNumbered (quoteMark :: (ds.reverse ++ []))
    rw [holdsNumbered_open (by simpa using hopen ds rfl) (by simp)]
    exact not_holdsNumbered_nil
  | case3 cs ih => exact ih (by simp) hquoted
  | case4 c cs hc ih =>
    have hrest := ih (by simp) (hshorter (List.suffix_cons c cs) hquoted)
    show _ ↔ ¬ HoldsNumbered (c :: cs)
    rw [holdsNumbered_cons hc]
    exact (append_eq_ok_iff [c] cs).trans hrest
  | case5 ds c cs hd ih =>
    -- A digit after the mark belongs to what was read since then.
    have hsince : sinceMark (some ds) ++ c :: cs = sinceMark (some (c :: ds)) ++ cs := by
      simp [sinceMark]
    rw [hsince] at hquoted ⊢
    refine ih ?_ hquoted
    rintro _ ⟨⟩ d hd'
    rcases List.mem_cons.mp hd' with rfl | hd'
    · exact hd
    · exact hopen ds rfl d hd'
  | case6 ds cs hempty hd ih =>
    obtain rfl : ds = [] := List.isEmpty_iff.mp hempty
    have hrest := ih (by rintro _ ⟨⟩; simp) (hshorter (List.suffix_cons quoteMark _) hquoted)
    show _ ↔ ¬ HoldsNumbered (quoteMark :: ([] ++ quoteMark :: cs))
    rw [holdsNumbered_open (by simp) (by simpa using hd)]
    exact (append_eq_ok_iff [quoteMark] (quoteMark :: cs)).trans hrest
  | case7 ds cs hempty hd ih =>
    -- The part that is put back here is longer than the whole text.
    refine iff_of_false (fun h => ?_) (not_not_intro ?_)
    · obtain ⟨part, hpart, h⟩ := bind_eq_ok_iff.mp h
      obtain ⟨u, -, h⟩ := bind_eq_ok_iff.mp h
      have hlt := hquoted part (mem_of_quotedPart hpart)
      have hlength := congrArg List.length (Except.ok.inj h)
      rw [List.length_append] at hlength
      omega
    · refine ⟨quoteMark :: (ds.reverse ++ [quoteMark]), ⟨ds.reverse, rfl, ?_, ?_⟩, [], cs, ?_⟩
      · simpa using hempty
      · simpa using hopen ds rfl
      · simp [sinceMark]
  | case8 ds c cs hd hc ih =>
    have hsuffix : cs <:+ sinceMark (some ds) ++ c :: cs :=
      (List.suffix_cons c cs).trans (List.suffix_append _ _)
    have hrest := ih (by simp) (hshorter hsuffix hquoted)
    have hsince : sinceMark (some ds) ++ c :: cs = [quoteMark] ++ ds.reverse ++ [c] ++ cs := by
      simp [sinceMark]
    show _ ↔ ¬ HoldsNumbered (quoteMark :: (ds.reverse ++ c :: cs))
    rw [holdsNumbered_open (by simpa using hopen ds rfl) (by simpa [hc] using hd),
      holdsNumbered_cons hc, hsince]
    exact (append_eq_ok_iff _ cs).trans hrest

/-- A character that is no quote mark and no digit ends what was put back in front of it. -/
theorem unmaskFrom_concat {q : CodePoint} (hmark : q ≠ quoteMark)
    (hdigit : ¬ Text.isDecimalDigit q.toChar) (quoted : List (List CodePoint))
    (open? : Option (List CodePoint)) (cs : List CodePoint) :
    unmaskFrom quoted open? (cs ++ [q]) = (unmaskFrom quoted open? cs).map (· ++ [q]) := by
  have hfront : ∀ {x y : Except Fault (List CodePoint)} (front : List CodePoint),
      x = y.map (· ++ [q]) → (do return front ++ (← x)) =
        (do return front ++ (← y) : Except Fault (List CodePoint)).map (· ++ [q]) := by
    rintro x (f | u) front rfl
    · rfl
    · exact congrArg Except.ok (List.append_assoc front u [q]).symm
  fun_induction unmaskFrom quoted open? cs with
  | case1 =>
    show unmaskFrom quoted none [q] = _
    rw [unmaskFrom, if_neg hmark]
    rfl
  | case2 ds =>
    show unmaskFrom quoted (some ds) [q] = _
    rw [unmaskFrom, if_neg hdigit, if_neg hmark, unmaskFrom, ok_bind]
    exact congrArg Except.ok (List.append_nil _)
  | case3 cs ih => rw [List.cons_append, unmaskFrom, if_pos rfl, ih]
  | case4 c cs hc ih =>
    rw [List.cons_append, unmaskFrom, if_neg hc]
    exact hfront [c] ih
  | case5 ds c cs hd ih => rw [List.cons_append, unmaskFrom, if_pos hd, ih]
  | case6 ds cs hempty hd ih =>
    rw [List.cons_append, unmaskFrom, if_neg hd, if_pos rfl, if_pos hempty]
    exact hfront [quoteMark] ih
  | case7 ds cs hempty hd ih =>
    rw [List.cons_append, unmaskFrom, if_neg hd, if_pos rfl, if_neg hempty]
    rcases quotedPart quoted ds.reverse with f | part
    · rfl
    · exact hfront part ih
  | case8 ds c cs hd hc ih =>
    rw [List.cons_append, unmaskFrom, if_neg hd, if_neg hc]
    exact hfront _ ih

theorem ne_quoteMark_of_isQuote {q : CodePoint} (hq : isQuote q = true) : q ≠ quoteMark := by
  rintro rfl
  exact absurd hq (by decide)

/-- The quotes around a text stay where they are. -/
theorem unmask_quoted {q : CodePoint} (hq : isQuote q = true) (quoted : List (List CodePoint))
    (w : List CodePoint) :
    unmask quoted (q :: (w ++ [q])) = (unmask quoted w).map fun u => q :: (u ++ [q]) := by
  have hmark := ne_quoteMark_of_isQuote hq
  have hdigit : ¬ Text.isDecimalDigit q.toChar := by
    have hends := endsNumber_of_isQuote hq
    simp only [endsNumber, Bool.and_eq_true, Bool.not_eq_true'] at hends
    simp [hends.1]
  have hfirst : Unmasks quoted [q] [q] := .of_not_mem (by simpa using hmark)
  rw [← List.singleton_append, hfirst]
  unfold unmask
  rw [unmaskFrom_concat hmark hdigit]
  rcases unmaskFrom quoted none w with f | u <;> rfl

/-! ### Splitting -/

section

variable {quote : CodePoint}

theorem splitFrom_ne_nil {s : Splitting} {cs : List CodePoint}
    (h : s = .between → ∃ c ∈ cs, c ≠ .char ',') : splitFrom quote s cs ≠ [] := by
  fun_induction splitFrom quote s cs with
  | case1 => simpa using h rfl
  | case2 | case3 => exact List.cons_ne_nil _ _
  | case4 c cs hquoted ih => exact ih fun h => by cases h
  | case5 cs hquoted ih =>
    refine ih fun _ => ?_
    obtain ⟨c, hmem, hc⟩ := h rfl
    exact ⟨c, (List.mem_cons.mp hmem).resolve_left hc, hc⟩
  | case6 c cs hquoted hc ih => exact ih fun h => by cases h
  | case7 | case9 => exact List.cons_ne_nil _ _
  | case8 read c cs hc ih => exact ih fun h => by cases h
  | case10 read opened cs ho ih => exact ih fun h => by cases h
  | case11 opened read c cs hc ih => exact ih fun h => by cases h

end

/-- In double quotes a comma divides the text if it also holds a single quote. -/
def IsDivided (q : CodePoint) (w : List CodePoint) : Prop :=
  q = .char '"' ∧ CodePoint.char '\'' ∈ w ∧ CodePoint.char ',' ∈ w

theorem isQuote_iff {q : CodePoint} : isQuote q = true ↔ q = .char '\'' ∨ q = .char '"' := by
  simp [isQuote]

/-- A text in quotes that is not divided is one argument. -/
theorem arguments_quoted {q : CodePoint} {w : List CodePoint} (hq : isQuote q = true) (hw : q ∉ w)
    (h : ¬ IsDivided q w) : arguments (q :: (w ++ [q])) = [q :: (w ++ [q])] := by
  have hown := (SplitsOff.of_quoted hq hw).1
  unfold arguments
  by_cases hsingle : (q :: (w ++ [q])).contains (CodePoint.char '\'') = true
  · rw [if_pos hsingle]
    rcases isQuote_iff.mp hq with rfl | rfl
    · exact hown
    · -- Single quotes inside are the ones that matter, and there is no comma to split at.
      have hmem : CodePoint.char '\'' ∈ w := by simpa using hsingle
      have hcomma : CodePoint.char ',' ∉ w := fun hcomma => h ⟨rfl, hmem, hcomma⟩
      refine (SplitsOff.of_no_comma (by decide) (by decide) fun d hd => ?_).1
      rintro rfl
      simp [hcomma] at hd
  · rw [if_neg hsingle]
    rcases isQuote_iff.mp hq with rfl | rfl
    · simp at hsingle
    · exact hown

/-- A text in quotes that is divided is more than one argument. -/
theorem IsDivided.arguments_ne {q : CodePoint} {w : List CodePoint} (h : IsDivided q w)
    (t : List CodePoint) : arguments (q :: (w ++ [q])) ≠ [t] := by
  obtain ⟨rfl, hsingle, hcomma⟩ := h
  obtain ⟨first, rest, rfl, hfirst⟩ := List.eq_append_cons_of_mem hcomma
  have hcontains : (CodePoint.char '"' :: (first ++ CodePoint.char ',' :: rest ++
      [CodePoint.char '"'])).contains (CodePoint.char '\'') = true := by
    rw [List.contains_iff_mem]
    exact List.mem_cons_of_mem _ (List.mem_append_left _ hsingle)
  have hsplit : SplitsOff (.char '\'') (CodePoint.char '"' :: first) := by
    refine .of_no_comma (by decide) (by decide) fun d hd => ?_
    rintro rfl
    rcases List.mem_cons.mp hd with hd | hd
    · exact absurd hd (by decide)
    · exact hfirst hd
  have hmore : splitFrom (.char '\'') .between (rest ++ [.char '"']) ≠ [] :=
    splitFrom_ne_nil fun _ => ⟨.char '"', by simp, by decide⟩
  intro hone
  unfold arguments at hone
  rw [if_pos hcontains, List.append_assoc, List.cons_append, ← List.cons_append, hsplit.2] at hone
  exact hmore (List.cons.inj hone).2

/-! ### Reading the argument -/

/-- Exactly one operand is read when there is one text and an operand is read from it. -/
theorem readAll_eq_singleton_iff {read : List CodePoint → Except Fault (Option Expr)}
    {texts : List (List CodePoint)} {e : Expr} :
    readAll read texts = .ok (some [e]) ↔ ∃ t, texts = [t] ∧ read t = .ok (some e) := by
  constructor
  · intro h
    rcases texts with - | ⟨t, texts⟩
    · cases h
    · obtain ⟨e', es, hes, ht, hrest⟩ := readAll_cons_eq_some_iff.mp h
      obtain ⟨rfl, rfl⟩ := List.cons.inj hes
      rcases texts with - | ⟨t', texts⟩
      · exact ⟨t, rfl, ht⟩
      · -- A second text gives a second operand.
        obtain ⟨_, _, hmore, -⟩ := readAll_cons_eq_some_iff.mp hrest
        cases hmore
  · rintro ⟨t, rfl, ht⟩
    exact readAll_cons ht rfl

/-- The literal of a text that is taken as it is. -/
def textLiteral (w : List CodePoint) : Expr :=
  .literal (.text ⟨w⟩) (some (.data .undefined)) false {}

section

variable (c : Catalog) {place : Place} {q : CodePoint} {w : List CodePoint}

theorem bare_quoted (hhint : place.hint = some .undefined) (hq : isQuote q = true)
    (u : List CodePoint) :
    bare c place (Text.trimPoints (q :: (u ++ [q]))) = .ok (textLiteral u) := by
  have hblank := isBlank_of_isQuote hq
  unfold bare
  rw [trimPoints_enclosed hblank hblank, quotedInside?_quoted hq, hhint]
  rfl

/-- **A text in quotes that was put back is read as its literal** exactly when it holds neither the mark
of a group nor a number between quote marks. -/
theorem expression_quoted_iff {l : Linear} (hquoted : l.quoted = [q :: (w ++ [q])]) (fuel : Nat)
    (hhint : place.hint = some .undefined) (hq : isQuote q = true) :
    expression c l fuel place (q :: (w ++ [q])) = .ok (some (textLiteral w)) ↔
      groupMark ∉ w ∧ ¬ HoldsNumbered w := by
  have hself : unmask l.quoted w = .ok w ↔ ¬ HoldsNumbered w := by
    refine unmaskFrom_eq_self_iff (fun ds hds => by cases hds) fun part hpart => ?_
    rw [hquoted] at hpart
    rw [List.mem_singleton.mp hpart, List.length_cons, List.length_append, List.length_append]
    show 0 + w.length < _
    omega
  have hgroupMark : q ≠ groupMark := by
    rintro rfl
    exact absurd hq (by decide)
  by_cases hmark : groupMark ∈ w
  · -- With a mark the text is a call or nothing.
    refine iff_of_false (fun h => ?_) fun h => h.1 hmark
    rcases expression_eq_some_cases h with ⟨htail, -⟩ | ⟨_, _, _, _, _, _, _, -, -, -, -, -, he⟩
    · exact not_mem_of_tail_split htail (by simp [hmark])
    · cases he
  · have hsplit : Text.split groupMark (q :: (w ++ [q])) = [q :: (w ++ [q])] := by
      apply split_of_not_mem
      rintro d hd rfl
      simp [hmark, hgroupMark.symm] at hd
    have hread : expression c l fuel place (q :: (w ++ [q])) =
        (unmask l.quoted w).map fun u => some (textLiteral u) := by
      unfold expression
      rw [hsplit]
      dsimp only
      rw [unmask_quoted hq]
      rcases unmask l.quoted w with f | u
      · rfl
      · show (do return some (← bare c place (Text.trimPoints (q :: (u ++ [q]))))) = _
        rw [bare_quoted c hhint hq]
        rfl
    rw [hread, map_eq_ok_iff]
    constructor
    · rintro ⟨u, hu, hliteral⟩
      obtain rfl : u = w := by simpa [textLiteral] using hliteral
      exact ⟨hmark, hself.mp hu⟩
    · rintro ⟨-, hnumbered⟩
      exact ⟨w, hself.mpr hnumbered, rfl⟩

end

/-! ### Reading the call -/

/-- The text of a call with one argument, which is in quotes. -/
def quotedCall (f : Function) (q : CodePoint) (w : List CodePoint) : List CodePoint :=
  (f.name : Text).points ++ [CodePoint.char '('] ++ (q :: (w ++ [q])) ++ [CodePoint.char ')']

/-- The linear form of such a call: a reference to the one group, in which the one quoted part is
masked. -/
def quotedLinear (f : Function) (q : CodePoint) (w : List CodePoint) : Linear where
  source := reference f.name 0
  groups := [[CodePoint.char '('] ++ ([quoteMark] ++ (Text.digits 0).map .char ++ [quoteMark]) ++
    [CodePoint.char ')']]
  quoted := [q :: (w ++ [q])]

theorem linear_ofText_quotedCall (f : Function) {q : CodePoint} {w : List CodePoint}
    (hq : isQuote q = true) (hw : q ∉ w) : Linear.ofText (quotedCall f q w) = quotedLinear f q w := by
  let name := (f.name : Text).points
  let ps : List Piece := name.map .plain ++ [.plain '(', .quoted q w, .plain ')']
  have hname := f.isArgumentText_name.isUnmarked
  have hproper : ∀ p ∈ ps, p.IsProper := by
    intro p hp
    rcases List.mem_append.mp hp with hp | hp
    · obtain ⟨d, hd, rfl⟩ := List.mem_map.mp hp
      exact (hname d hd).1
    · simp only [List.mem_cons, List.not_mem_nil, or_false] at hp
      rcases hp with rfl | rfl | rfl
      · exact (by decide : isQuote '(' = false)
      · exact ⟨hq, hw⟩
      · exact (by decide : isQuote ')' = false)
  have htext : quotedCall f q w = ps.flatMap Piece.chars := by
    rw [List.flatMap_append, chars_plain]
    simp [quotedCall, Piece.chars, name]
  have hmask : maskFrom 0 ps =
      name ++ [CodePoint.char '('] ++ ([quoteMark] ++ (Text.digits 0).map .char ++ [quoteMark]) ++
        [CodePoint.char ')'] := by
    rw [maskFrom_append, maskFrom_plain, quotedParts_plain]
    simp only [List.append_assoc, List.append_cancel_left_eq]
    rfl
  have hquoted : quotedParts ps = [q :: (w ++ [q])] := by
    rw [quotedParts_append, quotedParts_plain]
    rfl
  let inside : List CodePoint := [quoteMark] ++ (Text.digits 0).map .char ++ [quoteMark]
  have hinner : inside.foldl Cutting.step ⟨[name.reverse ++ []], [], []⟩ =
      ⟨[name.reverse ++ []], inside.reverse, List.reverse [] ++ []⟩ :=
    foldl_step_of_no_parenthesis (by decide) _
  have hcut := foldl_step_group (fun d hd => ⟨(hname d hd).2.1, (hname d hd).2.2.1⟩) hinner
  unfold Linear.ofText
  dsimp only
  rw [htext, pieces_chars hproper, hmask, hcut, hquoted]
  simp [Cutting.rest, quotedLinear, reference, inside]

/-- What the call is read as depends on its argument alone. -/
theorem ofText?_quotedCall (c : Catalog) (f : Function) {q : CodePoint} {w : List CodePoint}
    (hq : isQuote q = true) (hw : q ∉ w) :
    ofText? c {} (quotedCall f q w) = orNothing do
      let args ← readAll (expression c (quotedLinear f q w) 1 (Place.argument {}))
        (arguments (q :: (w ++ [q])))
      return args.map fun args => .call f args (some (.data f.resultType)) {} := by
  let l := quotedLinear f q w
  -- The quoted part is put back into its group before the group is split.
  have hpart : l.quoted[0]? = some (q :: (w ++ [q])) := rfl
  have hopen : Unmasks l.quoted [CodePoint.char '('] [CodePoint.char '('] := .of_not_mem (by decide)
  have hclose : Unmasks l.quoted [CodePoint.char ')'] [CodePoint.char ')'] := .of_not_mem (by decide)
  have hunmask := ((hopen.append (Unmasks.of_getElem? hpart (by decide))).append hclose).unmask_eq
  have htexts : argumentTexts l ((Text.digits 0).map .char) = .ok (arguments (q :: (w ++ [q]))) :=
    argumentTexts_digits (by decide) rfl hunmask
  unfold ofText?
  rw [linear_ofText_quotedCall f hq hw]
  exact expression_reference c htexts 1 {}

/-- **Quoted arguments are opaque but for three things.** A call of any function whose only argument is a
text in quotes is read as the call with the literal of that text exactly when the text holds no mark of
a group, no number between quote marks, and not both a comma and a single quote if it stands in double
quotes. -/
theorem quoted_argument_iff (c : Catalog) (f : Function) {q : CodePoint} {w : List CodePoint}
    (hq : isQuote q = true) (hw : q ∉ w) :
    ofText? c {} (quotedCall f q w) =
        .ok (some (.call f [textLiteral w] (some (.data f.resultType)) {})) ↔
      groupMark ∉ w ∧ ¬ HoldsNumbered w ∧ ¬ IsDivided q w := by
  have hcall : ∀ x : Except Fault (Option (List Expr)),
      (orNothing do return (← x).map fun args => Expr.call f args (some (.data f.resultType)) {}) =
        .ok (some (.call f [textLiteral w] (some (.data f.resultType)) {})) ↔
          x = .ok (some [textLiteral w]) := by
    intro x
    constructor
    · intro h
      obtain ⟨args, hargs, h⟩ := bind_eq_ok_iff.mp (orNothing_eq_some h)
      rcases args with - | args
      · cases h
      · have hsame : args = [textLiteral w] := by simpa using h
        rw [hargs, hsame]
    · rintro rfl
      rfl
  rw [ofText?_quotedCall c f hq hw]
  refine (hcall _).trans (readAll_eq_singleton_iff.trans ?_)
  have hread := expression_quoted_iff c (show (quotedLinear f q w).quoted = _ from rfl) 1
    (show (Place.argument {}).hint = _ from rfl) hq
  by_cases hdivided : IsDivided q w
  · refine iff_of_false ?_ fun h => h.2.2 hdivided
    rintro ⟨t, ht, -⟩
    exact hdivided.arguments_ne t ht
  · rw [arguments_quoted hq hw hdivided]
    constructor
    · rintro ⟨t, ht, h⟩
      obtain rfl := (List.cons.inj ht).1
      obtain ⟨hmark, hnumbered⟩ := hread.mp h
      exact ⟨hmark, hnumbered, hdivided⟩
    · rintro ⟨hmark, hnumbered, -⟩
      exact ⟨_, rfl, hread.mpr ⟨hmark, hnumbered⟩⟩

theorem quoted_argument_of_parentheses :
    let w := (Text.ofString "a(b, \"c").points
    isQuote '\'' = true ∧ CodePoint.char '\'' ∉ w ∧
      ofText? [] {} (quotedCall .toupper '\'' w) =
        .ok (some (.call .toupper [textLiteral w] (some (.data .string)) {})) := by
  intro w
  have hquote : CodePoint.char '\'' ∉ w := by decide
  have hmarks : ∀ d ∈ w, d ≠ groupMark ∧ d ≠ quoteMark := by decide
  have hnumbered : ¬ HoldsNumbered w := by
    rw [← List.append_nil w, holdsNumbered_append fun d hd => (hmarks d hd).2]
    exact not_holdsNumbered_nil
  have hdivided : ¬ IsDivided '\'' w := fun h => absurd h.1 (by decide)
  refine ⟨by decide, hquote, (quoted_argument_iff [] .toupper (by decide) hquote).mpr ?_⟩
  exact ⟨fun hmem => (hmarks _ hmem).1 rfl, hnumbered, hdivided⟩

/-- With a single quote inside, a text in double quotes is split at its comma, into two paths. -/
theorem double_quoted_argument_divided :
    let w := (Text.ofString "it's, ok").points
    isQuote '"' = true ∧ CodePoint.char '"' ∉ w ∧
      ofText? [] {} (quotedCall .length '"' w) =
        .ok (some (.call .length [.path (.text "\"it's") none {}, .path (.text "ok\"") none {}]
          (some (.data .int32)) {})) ∧
      ofText? [] {} (quotedCall .length '"' w) ≠
        .ok (some (.call .length [textLiteral w] (some (.data .int32)) {})) := by
  intro w
  have hquote : CodePoint.char '"' ∉ w := by decide
  have hfirst : expression [] (quotedLinear .length '"' w) 1 (Place.argument {})
      (Text.ofString "\"it's").points = .ok (some (.path (.text "\"it's") none {})) := by
    rw [expression_of_no_mark _ _ _ _ (by decide)]
    rfl
  have hsecond : expression [] (quotedLinear .length '"' w) 1 (Place.argument {})
      (Text.ofString " ok\"").points = .ok (some (.path (.text "ok\"") none {})) := by
    rw [expression_of_no_mark _ _ _ _ (by decide)]
    rfl
  have hsplit : arguments (CodePoint.char '"' :: (w ++ [CodePoint.char '"'])) =
      [(Text.ofString "\"it's").points, (Text.ofString " ok\"").points] := by decide
  have hread : ofText? [] {} (quotedCall .length '"' w) =
      .ok (some (.call .length [.path (.text "\"it's") none {}, .path (.text "ok\"") none {}]
        (some (.data .int32)) {})) := by
    rw [ofText?_quotedCall [] .length (by decide) hquote, hsplit,
      readAll_cons hfirst (readAll_cons hsecond rfl)]
    rfl
  refine ⟨by decide, hquote, hread, ?_⟩
  rw [hread]
  intro h
  cases h

end RecordFilter.Operand
