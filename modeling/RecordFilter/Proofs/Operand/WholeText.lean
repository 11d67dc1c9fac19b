import Mathlib.Data.List.Forall2
import RecordFilter.Proofs.Operand.CallRoundTrip
import RecordFilter.Proofs.Operand.Expansion

/-!
# Operands and the whole of their texts

A call is recognised by what stands at its first reference: the name in front of it and the number behind
it. What follows the number is not looked at, as long as it is blank or another reference. `toupper(x)(y)`
is read as `toupper(x)`.

When no closing parenthesis stands in front of an opening one, with blanks between them at most, or right
in front of a digit or an underscore, the operand is spelled by the whole of its text, and so is each of
its arguments (`Operand.isSpelled_of_ofText?`).
-/

namespace RecordFilter

namespace Operand

/-- The trimmed text is the name of the function, blanks, and one group of balanced parentheses, which
ends where the text ends. -/
def IsCallText (f : Function) (u inner : List CodePoint) : Prop :=
  ∃ name gap, Text.trimPoints u = name ++ gap ++ .char '(' :: (inner ++ [.char ')']) ∧
    Function.ofName? ⟨name⟩ = some f ∧ (∀ b ∈ gap, Text.isBlank b = true) ∧
    Balanced (fun _ => True) inner

/-- The texts stand in a text with commas between them, and hold no commas but in parentheses. -/
def Divides (inner : List CodePoint) (texts : List (List CodePoint)) : Prop :=
  inner = [CodePoint.char ','].intercalate texts ∧ ∀ t ∈ texts, Balanced (· ≠ .char ',') t

end Operand

mutual

/-- The operand is spelled by the text, of which nothing but blanks at the ends is left over. In the
parentheses of a call every text between commas that is not empty spells an argument. -/
def Expr.IsSpelled : Expr → List CodePoint → Prop
  | .literal v _ _ _, u => v = Operand.numberValue (Text.trimPoints u)
  | .path p _ _, u => p = Value.ofPoints (Text.trimPoints u)
  | .call f args _ _, u => ∃ inner texts, Operand.IsCallText f u inner ∧ Operand.Divides inner texts ∧
      Expr.AreSpelled args (texts.filter fun t => !t.isEmpty)

/-- The operands are spelled by the texts, one by one. -/
def Expr.AreSpelled : List Expr → List (List CodePoint) → Prop
  | [], texts => texts = []
  | e :: es, texts => ∃ t rest, texts = t :: rest ∧ Expr.IsSpelled e t ∧ Expr.AreSpelled es rest

end

namespace Operand

/-! ### Splitting without quotes -/

theorem startsQuoted_of_not_mem {quote : CodePoint} {cs : List CodePoint} (h : quote ∉ cs) :
    startsQuoted quote cs = false := by
  unfold startsQuoted
  split
  · rename_i c rest heq
    have hmem : c ∈ cs := (List.dropWhile_suffix _).mem (heq ▸ List.mem_cons_self)
    have hne : c ≠ quote := by
      rintro rfl
      exact h hmem
    simp [hne]
  · rfl

/-- Without quotes the arguments are the pieces between commas that are not empty. An argument of which
something was read already goes on with the first piece. -/
theorem splitFrom_of_not_mem {quote : CodePoint} {cs : List CodePoint} (h : quote ∉ cs) :
    splitFrom quote .between cs = (Text.split ',' cs).filter (fun t => !t.isEmpty) ∧
      ∀ (read p : List CodePoint) (ps : List (List CodePoint)), Text.split ',' cs = p :: ps →
        splitFrom quote (.plain read) cs = (read.reverse ++ p) :: ps.filter fun t => !t.isEmpty := by
  induction cs with
  | nil =>
    refine ⟨rfl, fun read p ps hsplit => ?_⟩
    cases hsplit
    simp [splitFrom]
  | cons c cs ih =>
    obtain ⟨hbetween, hplain⟩ := ih fun hmem => h (List.mem_cons_of_mem _ hmem)
    have hstart := startsQuoted_of_not_mem h
    by_cases hc : c = ','
    · have hsplit : Text.split ',' (c :: cs) = [] :: Text.split ',' cs := by rw [Text.split, if_pos hc]
      rw [hsplit, splitFrom, hstart, if_neg Bool.false_ne_true, if_pos hc]
      refine ⟨hbetween, fun read p ps hps => ?_⟩
      obtain ⟨rfl, rfl⟩ := List.cons.inj hps
      rw [splitFrom, if_pos hc, hbetween, List.append_nil]
    · obtain ⟨p, ps, hps⟩ := List.exists_cons_of_ne_nil (Text.split_ne_nil ',' cs)
      have hsplit : Text.split ',' (c :: cs) = (c :: p) :: ps := by rw [Text.split, if_neg hc, hps]
      rw [hsplit, splitFrom, hstart, if_neg Bool.false_ne_true, if_neg hc, hplain [c] p ps hps]
      refine ⟨rfl, fun read p' ps' hps' => ?_⟩
      obtain ⟨rfl, rfl⟩ := List.cons.inj hps'
      rw [splitFrom, if_neg hc, hplain (c :: read) p ps hps, List.reverse_cons, List.append_assoc]
      rfl

theorem arguments_of_no_quote {cs : List CodePoint} (h : ∀ c ∈ cs, isQuote c = false) :
    arguments cs = (Text.split ',' cs).filter fun t => !t.isEmpty := by
  have hquote : ∀ q, isQuote q = true → q ∉ cs := by
    intro q hq hmem
    rw [h q hmem] at hq
    cases hq
  unfold arguments
  split
  · exact (splitFrom_of_not_mem (hquote _ (by decide))).1
  · exact (splitFrom_of_not_mem (hquote _ (by decide))).1

theorem append_intercalate {α : Type} (sep front t : List α) (ts : List (List α)) :
    sep.intercalate ((front ++ t) :: ts) = front ++ sep.intercalate (t :: ts) := by
  cases ts with
  | nil => rw [List.intercalate_singleton, List.intercalate_singleton]
  | cons => simp [List.intercalate_cons_cons]

/-- A text in linear form and what it stands for are split at the same commas. -/
theorem Expands.split {groups : List (List CodePoint)} {x u : List CodePoint}
    (h : Expands groups x u) :
    ∃ us, u = [CodePoint.char ','].intercalate us ∧
      List.Forall₂ (Expands groups) (Text.split ',' x) us := by
  induction h with
  | nil => exact ⟨[[]], rfl, .cons .nil .nil⟩
  | @char c x u hc _ ih =>
    obtain ⟨us, rfl, hus⟩ := ih
    obtain ⟨p, ps, hps⟩ := List.exists_cons_of_ne_nil (Text.split_ne_nil ',' x)
    rw [hps] at hus
    obtain ⟨v, vs, hv, hvs, rfl⟩ := List.forall₂_cons_left_iff.mp hus
    by_cases hcomma : c = ','
    · refine ⟨[] :: v :: vs, ?_, ?_⟩
      · rw [List.intercalate_cons_cons, hcomma]
        rfl
      · rw [Text.split, if_pos hcomma, hps]
        exact .cons .nil (.cons hv hvs)
    · refine ⟨(c :: v) :: vs, ?_, ?_⟩
      · exact (append_intercalate [CodePoint.char ','] [c] v vs).symm
      · rw [Text.split, if_neg hcomma, hps]
        exact .cons (.char hc hv) hvs
  | @group k inner v x u hk hinner hv hstops _ _ ih =>
    obtain ⟨us, rfl, hus⟩ := ih
    obtain ⟨p, ps, hps⟩ := List.exists_cons_of_ne_nil (Text.split_ne_nil ',' x)
    rw [hps] at hus
    obtain ⟨w, ws, hw, hws, rfl⟩ := List.forall₂_cons_left_iff.mp hus
    -- A reference has no comma in it and joins the piece behind it.
    have hreference : ∀ d ∈ groupMark :: (Text.digits k).map CodePoint.char, d ≠ ',' := by
      intro d hd
      rcases List.mem_cons.mp hd with rfl | hd
      · decide
      · obtain ⟨e, he, rfl⟩ := List.mem_map.mp hd
        exact Numeral.ne_of_isNumeralChar (.inl (Numeral.isDigit_of_mem_digits he)) (by decide)
    have hpiece : Stops p := by
      obtain ⟨rest, rfl, -⟩ := exists_of_split hps
      exact hstops.of_append
    refine ⟨(.char '(' :: (v ++ [.char ')']) ++ w) :: ws, ?_, ?_⟩
    · rw [append_intercalate]
      simp
    · rw [← List.cons_append, split_append_of_not_mem hreference hps]
      have hgroup := Expands.group hk hinner hv hpiece hw
      exact .cons (by simpa using hgroup) hws

theorem mem_split {mark : CodePoint} {cs p : List CodePoint} (h : p ∈ Text.split mark cs) :
    ∀ d ∈ p, d ∈ cs ∧ d ≠ mark := by
  induction cs generalizing p with
  | nil =>
    rw [List.mem_singleton.mp h]
    simp
  | cons c cs ih =>
    obtain ⟨q, qs, hqs⟩ := List.exists_cons_of_ne_nil (Text.split_ne_nil mark cs)
    by_cases hc : c = mark
    · rw [Text.split, if_pos hc] at h
      rcases List.mem_cons.mp h with rfl | h
      · simp
      · exact fun d hd => ⟨List.mem_cons_of_mem _ (ih h d hd).1, (ih h d hd).2⟩
    · rw [Text.split, if_neg hc, hqs] at h
      rw [hqs] at ih
      intro d hd
      rcases List.mem_cons.mp h with rfl | h
      · rcases List.mem_cons.mp hd with rfl | hd
        · exact ⟨List.mem_cons_self, hc⟩
        · have hmem := ih List.mem_cons_self d hd
          exact ⟨List.mem_cons_of_mem _ hmem.1, hmem.2⟩
      · have hmem := ih (List.mem_cons_of_mem _ h) d hd
        exact ⟨List.mem_cons_of_mem _ hmem.1, hmem.2⟩

/-- What the pieces between commas stand for has its commas in parentheses. -/
theorem balanced_of_pieces {groups xs us : List (List CodePoint)}
    (h : List.Forall₂ (Expands groups) xs us)
    (hxs : ∀ x ∈ xs, ∀ d ∈ x, (d ≠ '(' ∧ d ≠ ')') ∧ d ≠ ',') :
    ∀ u ∈ us, Balanced (· ≠ .char ',') u := by
  induction h with
  | nil =>
    intro u hu
    cases hu
  | cons hx _ ih =>
    have hpiece := hxs _ List.mem_cons_self
    intro u hu
    rcases List.mem_cons.mp hu with rfl | hu
    · exact hx.balanced (fun d hd => (hpiece d hd).1) fun d hd => (hpiece d hd).2
    · exact ih (fun x hx => hxs x (List.mem_cons_of_mem _ hx)) u hu

theorem Expands.isEmpty_eq {groups : List (List CodePoint)} {x u : List CodePoint}
    (h : Expands groups x u) : x.isEmpty = u.isEmpty := by
  cases h <;> rfl

/-! ### Texts with one group after the other -/

/-- The text holds no quotes and no marks of quoted parts, and no closing parenthesis in it is followed
by an opening one with nothing but blanks in between. -/
structure IsPlainText (u : List CodePoint) : Prop where
  plain : ∀ d ∈ u, isQuote d = false ∧ d ≠ quoteMark
  apart : ∀ gap, (∀ b ∈ gap, Text.isBlank b = true) →
    ¬ (CodePoint.char ')' :: (gap ++ [CodePoint.char '('])) <:+: u

theorem IsPlainText.of_infix {u v : List CodePoint} (h : IsPlainText u) (hv : v <:+: u) :
    IsPlainText v where
  plain d hd := h.plain d (hv.mem hd)
  apart gap hgap hpart := h.apart gap hgap (hpart.trans hv)

/-- It is enough to look at the character behind each closing parenthesis. -/
theorem apart_of_isChain {u : List CodePoint}
    (h : u.IsChain fun a b => a = .char ')' → b ≠ .char '(' ∧ Text.isBlank b = false) :
    ∀ gap, (∀ b ∈ gap, Text.isBlank b = true) →
      ¬ (CodePoint.char ')' :: (gap ++ [CodePoint.char '('])) <:+: u := by
  rintro gap hgap ⟨front, rest, rfl⟩
  have hchain := h.left_of_append.right_of_append
  cases gap with
  | nil => exact ((List.isChain_cons.mp hchain).1 _ rfl rfl).1 rfl
  | cons b gap =>
    have hnext := ((List.isChain_cons.mp hchain).1 b rfl rfl).2
    rw [hgap b List.mem_cons_self] at hnext
    cases hnext

variable {c : Catalog} {l : Linear} {x u : List CodePoint}

/-- In linear form the text holds no quotes and no marks of quoted parts either. -/
theorem Expands.plain {groups : List (List CodePoint)} (h : Expands groups x u) (hu : IsPlainText u) :
    ∀ d ∈ x, isQuote d = false ∧ d ≠ quoteMark := by
  refine h.forall_of_forall (by decide) (fun k d hd => ?_) hu.plain
  exact ⟨(plain_of_mem_digits hd).1, (groupMark_ne_of_mem_digits hd).2.1⟩

/-- The texts of the arguments are those in the group that is referred to, and nothing but blanks stands
behind its number. -/
theorem argumentTexts_cases {k : Nat} {inner p : List CodePoint} {texts : List (List CodePoint)}
    (hgroup : l.groups[k]? = some (.char '(' :: (inner ++ [.char ')'])))
    (hinner : ∀ d ∈ inner, d ≠ quoteMark) (hp : Stops p)
    (h : argumentTexts l ((Text.digits k).map .char ++ p) = .ok texts) :
    texts = arguments inner ∧ ∀ b ∈ p, Text.isBlank b = true := by
  have hunmask : unmask l.quoted (.char '(' :: (inner ++ [.char ')'])) =
      .ok (.char '(' :: (inner ++ [.char ')'])) := by
    apply unmask_of_not_mem
    intro d hd
    rcases List.mem_cons.mp hd with rfl | hd
    · decide
    · rcases List.mem_append.mp hd with hd | hd
      · exact hinner d hd
      · rw [List.mem_singleton.mp hd]
        decide
  unfold argumentTexts at h
  rcases hn : Numeral.int? (((Text.digits k).map CodePoint.char ++ p).map CodePoint.toChar) with - | n
  · rw [hn] at h
    cases h
  · obtain ⟨rfl, hblank⟩ := int?_digits_append hp hn
    rw [hn] at h
    dsimp only [Option.bind_some] at h
    rw [Linear.group?_natCast, hgroup] at h
    dsimp only at h
    rw [hunmask, ok_bind, trimPoints_enclosed (by decide) (by decide), List.drop_one, List.tail_cons,
      List.dropLast_concat] at h
    cases h
    exact ⟨rfl, hblank⟩

/-- What is called at the first reference: the group is the last thing in the text, and the texts of the
arguments are those in it. -/
theorem Expands.reference_cases (h : Expands l.groups x u) (hu : IsPlainText u)
    {name index : List CodePoint} {rest texts : List (List CodePoint)}
    (hsplit : Text.split groupMark x = name :: index :: rest)
    (htexts : argumentTexts l index = .ok texts) :
    ∃ inner v gap : List CodePoint, u = name ++ .char '(' :: (v ++ .char ')' :: gap) ∧
      (∀ b ∈ gap, Text.isBlank b = true) ∧ (∀ d ∈ inner, d ≠ '(' ∧ d ≠ ')') ∧
      Expands l.groups inner v ∧ texts = arguments inner := by
  rcases split_cases groupMark x with ⟨-, hone⟩ | ⟨front, s, rfl, hfront, hmore⟩
  · rw [hone] at hsplit
    cases hsplit
  rw [hmore] at hsplit
  obtain ⟨rfl, hindex⟩ := List.cons.inj hsplit
  obtain ⟨k, inner, v, y, w, rfl, hk, hinner, hv, hstops, hw, rfl⟩ := h.after_mark hfront
  -- The number that is read begins with the digits of the reference and goes on up to the next mark.
  have hdigits : ∀ d ∈ (Text.digits k).map CodePoint.char, d ≠ groupMark :=
    fun d hd => (groupMark_ne_of_mem_digits hd).1
  obtain ⟨p, ps, hps⟩ := List.exists_cons_of_ne_nil (Text.split_ne_nil groupMark y)
  rw [split_append_of_not_mem hdigits hps] at hindex
  obtain ⟨rfl, rfl⟩ := List.cons.inj hindex
  have hinside : IsPlainText v := hu.of_infix ⟨front ++ [.char '('], .char ')' :: w, by simp⟩
  have hpiece : Stops p := by
    obtain ⟨rest, rfl, -⟩ := exists_of_split hps
    exact hstops.of_append
  obtain ⟨harguments, hblank⟩ :=
    argumentTexts_cases hk (fun d hd => (hv.plain hinside d hd).2) hpiece htexts
  rcases split_cases groupMark y with ⟨hy, hone⟩ | ⟨gap, t, rfl, hgap, hmore⟩
  · rw [hone] at hps
    obtain ⟨rfl, rfl⟩ := List.cons.inj hps
    rw [hw.eq_of_unmarked hy]
    exact ⟨inner, v, y, rfl, hblank, hinner, hv, harguments⟩
  · -- A second reference behind the first one would be a group right behind the group.
    rw [hmore] at hps
    obtain ⟨rfl, -⟩ := List.cons.inj hps
    obtain ⟨-, -, v', -, w', -, -, -, -, -, -, rfl⟩ := hw.after_mark hgap
    refine (hu.apart gap hblank ⟨front ++ .char '(' :: v, v' ++ .char ')' :: w', ?_⟩).elim
    simp

/-! ### What is spelled -/

/-- A text that is no call spells what it is read as. -/
theorem isSpelled_of_bare {place : Place} {e : Expr} (hschema : place.schema = none)
    (hx : ∀ d ∈ x, isQuote d = false) (h : bare c place (Text.trimPoints x) = .ok e) :
    e.IsSpelled x := by
  have htrim : ∀ d ∈ Text.trimPoints x, isQuote d = false :=
    fun d hd => hx d ((dropBothEnds_isInfix _ x).mem hd)
  have hnumber : ∀ {e : Expr}, Expr.ofValue (numberValue (Text.trimPoints x)) none false = .ok e →
      e.IsSpelled x := by
    intro e he
    obtain ⟨w, hw, rfl⟩ := Expr.ofValue_eq_ok_iff.mp he
    show w = numberValue (Text.trimPoints x)
    revert hw
    unfold numberValue
    dsimp only
    split
    · intro hw
      cases hw
      rfl
    · intro hw
      cases hw
      rfl
  unfold bare at h
  rw [quotedInside?_of_no_quote htrim, hschema] at h
  dsimp only at h
  split at h
  · exact hnumber h
  · cases h
    rfl

/-- A text ends in the blanks that trimming takes away. -/
theorem exists_of_trimPoints (cs : List CodePoint) :
    ∃ lead trail, cs = lead ++ Text.trimPoints cs ++ trail ∧
      (∀ b ∈ lead, Text.isBlank b = true) ∧ ∀ b ∈ trail, Text.isBlank b = true := by
  have hends : ∀ ds : List CodePoint, ∃ lead, ds = lead ++ ds.dropWhile Text.isBlank ∧
      ∀ b ∈ lead, Text.isBlank b = true :=
    fun ds => ⟨ds.takeWhile Text.isBlank, List.takeWhile_append_dropWhile.symm,
      fun b hb => List.mem_takeWhile_imp hb⟩
  obtain ⟨lead, hlead, hleadBlank⟩ := hends cs
  obtain ⟨trail, htrail, htrailBlank⟩ := hends (cs.dropWhile Text.isBlank).reverse
  refine ⟨lead, trail.reverse, ?_, hleadBlank, by simpa using htrailBlank⟩
  have hback := congrArg List.reverse htrail
  rw [List.reverse_reverse, List.reverse_append] at hback
  rw [List.append_assoc]
  exact hlead.trans (congrArg (lead ++ ·) hback)

/-- A name, a group and blanks are the text of a call when trimmed. -/
theorem isCallText_of_group {f : Function} {name inner gap : List CodePoint}
    (hname : Function.ofName? ⟨Text.trimPoints name⟩ = some f)
    (hgap : ∀ b ∈ gap, Text.isBlank b = true) (hinner : Balanced (fun _ => True) inner) :
    IsCallText f (name ++ .char '(' :: (inner ++ .char ')' :: gap)) inner := by
  obtain ⟨lead, trail, hsplit, hlead, htrail⟩ := exists_of_trimPoints name
  have hidem : Text.trimPoints (Text.trimPoints name) = Text.trimPoints name :=
    Text.dropBothEnds_dropBothEnds _ name
  refine ⟨Text.trimPoints name, trail, ?_, hname, htrail, hinner⟩
  rcases hcore : Text.trimPoints name with - | ⟨a, core⟩
  · have hnone : Function.ofName? ⟨[]⟩ = none := by decide
    rw [hcore, hnone] at hname
    cases hname
  · rw [hcore] at hidem hsplit
    have htext : name ++ .char '(' :: (inner ++ .char ')' :: gap) =
        lead ++ (a :: (core ++ trail ++ .char '(' :: inner ++ [.char ')'])) ++ gap := by
      rw [hsplit]
      simp
    rw [htext, trimPoints_between hlead hgap (isBlank_of_trimPoints hidem) (by decide)]
    simp

/-- If reading each text gives an operand that is spelled by what the text stands for, then all the
operands that are read are spelled. -/
theorem areSpelled_of_readAll {read : List CodePoint → Except Fault (Option Expr)}
    {xs us : List (List CodePoint)} {es : List Expr} (h : List.Forall₂ (Expands l.groups) xs us)
    (hread : ∀ x, ∀ u ∈ us, ∀ e, Expands l.groups x u → read x = .ok (some e) → e.IsSpelled u)
    (hes : readAll read xs = .ok (some es)) : Expr.AreSpelled es us := by
  induction h generalizing es with
  | nil =>
    cases hes
    rfl
  | @cons x u xs us hx _ ih =>
    obtain ⟨e, es', rfl, he, hes⟩ := readAll_cons_eq_some_iff.mp hes
    refine ⟨u, us, rfl, hread x u List.mem_cons_self e hx he, ih (fun y v hv => ?_) hes⟩
    exact hread y v (List.mem_cons_of_mem _ hv)

/-- What a text in linear form is read as is spelled by the text that it stands for. -/
theorem isSpelled_of_expression {fuel : Nat} {place : Place} {e : Expr}
    (hschema : place.schema = none) (h : Expands l.groups x u) (hu : IsPlainText u)
    (he : expression c l fuel place x = .ok (some e)) : e.IsSpelled u := by
  induction fuel using Nat.strongRecOn generalizing place x u e with
  | _ fuel ih =>
    have hx := h.plain hu
    rcases expression_eq_some_cases he with ⟨htail, token, htoken, he⟩ |
      ⟨less, name, index, rest, texts, args, f, rfl, hsplit, htexts, hargs, hf, rfl⟩
    · rw [unmask_of_not_mem _ fun d hd => (hx d hd).2] at htoken
      cases htoken
      rw [h.eq_of_unmarked (not_mem_of_tail_split htail)]
      exact isSpelled_of_bare hschema (fun d hd => (hx d hd).1) he
    · obtain ⟨inner, v, gap, rfl, hgap, hinner, hv, rfl⟩ := h.reference_cases hu hsplit htexts
      have hinside : IsPlainText v := hu.of_infix ⟨name ++ [.char '('], .char ')' :: gap, by simp⟩
      obtain ⟨us, rfl, hus⟩ := hv.split
      have hbalanced : Balanced (fun _ => True) ([CodePoint.char ','].intercalate us) :=
        hv.balanced hinner fun _ _ => trivial
      refine ⟨_, us, isCallText_of_group hf hgap hbalanced, ⟨rfl, ?_⟩, ?_⟩
      · refine balanced_of_pieces hus fun p hp d hd => ?_
        exact ⟨hinner d (mem_split hp d hd).1, (mem_split hp d hd).2⟩
      · rw [arguments_of_no_quote fun d hd => (hv.plain hinside d hd).1] at hargs
        have hsame : ∀ {x u : List CodePoint}, Expands l.groups x u →
            ((!x.isEmpty) = true ↔ (!u.isEmpty) = true) := by
          intro x u hxu
          rw [hxu.isEmpty_eq]
        have hfilter : List.Forall₂ (Expands l.groups)
            ((Text.split ',' inner).filter fun t => !t.isEmpty) (us.filter fun t => !t.isEmpty) :=
          List.rel_filter (fun _ _ hxu => hsame hxu) hus
        refine areSpelled_of_readAll hfilter (fun y w hw e hy he => ?_) hargs
        have hpart := hinside.of_infix (infix_intercalate (List.mem_filter.mp hw).1)
        have hnone : place.argument.schema = none := hschema
        exact ih less (Nat.lt_succ_self less) hnone hy hpart he

/-- **The whole text spells the operand.** Take a text without quotes and marks in which no closing
parenthesis is followed by a digit, an underscore, or an opening parenthesis behind blanks at most. If it
is read as a call, then the trimmed text is the name of the function, blanks, and one group of balanced
parentheses that ends at its end, and the same holds of each argument that is a call. -/
theorem isSpelled_of_ofText? (c : Catalog) {cs : List CodePoint} {e : Expr} (hplain : IsPlainText cs)
    (hcs : IsUnambiguous cs) (he : ofText? c {} cs = .ok (some e)) : e.IsSpelled cs := by
  have hexpands := expands_source (fun d hd => (hplain.plain d hd).1) hcs
  exact isSpelled_of_expression rfl hexpands hplain he

theorem isSpelled_of_nested_call :
    let cs := (Text.ofString "concat(toupper(name), code)").points
    let inner : Expr := .call .toupper [.path (.text "name") none {}] (some (.data .string)) {}
    let e : Expr := .call .concat [inner, .path (.text "code") none {}] (some (.data .string)) {}
    IsPlainText cs ∧ IsUnambiguous cs ∧ ofText? [] {} cs = .ok (some e) ∧ e.IsSpelled cs := by
  intro cs inner e
  have hplain : IsPlainText cs := ⟨by decide, apart_of_isChain (by decide)⟩
  have hcs : IsUnambiguous cs := ⟨by decide, by decide⟩
  let l : Linear := ⟨reference Function.concat.name 1,
    [(Text.ofString "(name)").points, (Text.ofString "(toupper¿0, code)").points], []⟩
  have hlinear : Linear.ofText cs = l := by rfl
  have hleaf : ∀ fuel (s : Text) p, (∀ d ∈ s.points, d ≠ groupMark ∧ d ≠ quoteMark) →
      bare [] (Place.argument {}) (Text.trimPoints s.points) = .ok p →
        expression [] l fuel (Place.argument {}) s.points = .ok (some p) := by
    intro fuel s p hs hp
    rw [expression_of_no_mark _ _ _ _ hs, hp]
    rfl
  have hgroup : ∀ k (s : Text) {texts : List (List CodePoint)},
      (Text.digits k).length ≤ Numeral.maxIntDigits →
        l.groups[k]? = some (.char '(' :: (s.points ++ [.char ')'])) →
          (∀ d ∈ CodePoint.char '(' :: (s.points ++ [.char ')']), d ≠ quoteMark) →
            arguments s.points = texts → argumentTexts l ((Text.digits k).map .char) = .ok texts := by
    rintro k s _ hk hs hmarks rfl
    exact argumentTexts_digits hk hs (unmask_of_not_mem _ hmarks)
  have hinner : expression [] l 2 (Place.argument {}) (reference Function.toupper.name 0) =
      .ok (some inner) := by
    have htexts : argumentTexts l ((Text.digits 0).map .char) = .ok [(Text.ofString "name").points] :=
      hgroup 0 "name" (by decide) rfl (by decide) (by decide)
    have hname := hleaf 1 "name" _ (by decide) rfl
    rw [expression_reference [] htexts 1, argument_argument, readAll_cons hname rfl]
    rfl
  have houter : ofText? [] {} cs = .ok (some e) := by
    have htexts : argumentTexts l ((Text.digits 1).map .char) =
        .ok [reference Function.toupper.name 0, (Text.ofString " code").points] :=
      hgroup 1 "toupper¿0, code" (by decide) rfl (by decide) (by decide)
    unfold ofText?
    rw [hlinear]
    have hcode := hleaf 2 " code" (.path (.text "code") none {}) (by decide) rfl
    show expression [] l 3 {} (reference Function.concat.name 1) = _
    rw [expression_reference [] htexts 2, readAll_cons hinner (readAll_cons hcode rfl)]
    rfl
  exact ⟨hplain, hcs, houter, isSpelled_of_ofText? [] hplain hcs houter⟩

/-- A second group behind the group of a call is ignored: no balanced group ends where the text does. -/
theorem group_after_call_ignored :
    let cs := (Text.ofString "toupper(x)(y)").points
    let e : Expr := .call .toupper [.path (.text "x") none {}] (some (.data .string)) {}
    (∀ d ∈ cs, isQuote d = false ∧ d ≠ groupMark ∧ d ≠ quoteMark) ∧
      ofText? [] {} cs = .ok (some e) ∧ ¬ e.IsSpelled cs := by
  intro cs e
  have hread : ofText? [] {} cs = .ok (some e) := by
    let l : Linear := ⟨(Text.ofString "toupper¿0¿1").points,
      [(Text.ofString "(x)").points, (Text.ofString "(y)").points], []⟩
    have hlinear : Linear.ofText cs = l := by rfl
    have hsplit : Text.split groupMark l.source = [(Text.ofString "toupper").points,
        (Text.digits 0).map .char, (Text.digits 1).map .char] := by decide
    have htexts : argumentTexts l ((Text.digits 0).map .char) =
        .ok (arguments (Text.ofString "x").points) :=
      argumentTexts_digits (by decide) rfl (unmask_of_not_mem _ (by decide))
    have hone : arguments (Text.ofString "x").points = [(Text.ofString "x").points] := by decide
    have hname : expression [] l 2 (Place.argument {}) (Text.ofString "x").points =
        .ok (some (.path (.text "x") none {})) := by
      rw [expression_of_no_mark _ _ _ _ (by decide)]
      rfl
    unfold ofText?
    rw [hlinear]
    show expression [] l 3 {} l.source = _
    rw [expression_succ hsplit, htexts, ok_bind, hone, readAll_cons hname rfl, ok_bind]
    exact congrArg (fun r => orNothing (.ok r)) (Function.callOf?_name .toupper _)
  refine ⟨by decide, hread, ?_⟩
  rintro ⟨inner, texts, ⟨name, gap, htext, hname, hgap, hinner⟩, -⟩
  have htrim : Text.trimPoints cs = cs := by decide
  rw [htrim] at htext
  -- The group begins at one of the two opening parentheses.
  have hplaces : ∀ n < cs.length, cs[n]? = some (.char '(') → n = 7 ∨ n = 10 := by decide
  have hparenthesis : cs[(name ++ gap).length]? = some (.char '(') := by
    rw [htext, List.getElem?_append_right (Nat.le_refl _), Nat.sub_self]
    rfl
  have hfront : name ++ gap = cs.take (name ++ gap).length := by
    rw [htext, List.take_left]
  have hback : .char '(' :: (inner ++ [.char ')']) = cs.drop (name ++ gap).length := by
    rw [htext, List.drop_left]
  have hlt := (List.getElem?_eq_some_iff.mp hparenthesis).1
  rcases hplaces _ hlt hparenthesis with hplace | hplace
  · rw [hplace] at hback
    have hinside : inner = (cs.drop 8).dropLast := by
      simpa using congrArg (fun t => (t.drop 1).dropLast) hback
    obtain rfl : inner = (Text.ofString "x)(y").points := hinside.trans (by decide)
    cases hinner with
    | char _ _ _ hrest =>
      cases hrest with
      | char _ hclose => exact hclose rfl
  · -- Then the name would hold the first group.
    rw [hplace] at hfront
    have hblank : ∀ b ∈ cs, Text.isBlank b = false := by decide
    have hnogap : gap = [] := by
      rcases gap with - | ⟨b, gap⟩
      · rfl
      · have hmem : b ∈ cs := by
          rw [htext]
          simp
        have hno := hblank b hmem
        rw [hgap b List.mem_cons_self] at hno
        cases hno
    rw [hnogap, List.append_nil] at hfront
    rw [hfront] at hname
    exact absurd hname (by decide)

end Operand

end RecordFilter
