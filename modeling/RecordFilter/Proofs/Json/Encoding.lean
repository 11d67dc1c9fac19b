import RecordFilter.Json.Write
import RecordFilter.Proofs.Filter.Building

/-!
# What a JSON text holds

JSON has no decimal numbers, dates and times. In a JSON text a double stands for a decimal number, and
a text for a date, a time of day or a moment: `Value.encoded` is the plain value of which the text of
a value is the text (`Json.exists_toText`).
-/

namespace RecordFilter

mutual

/-- What a JSON text holds in the place of a value. -/
def Value.encoded : Value → Value
  | .decimal d => .double d.toDouble
  | .token t => .text t.key
  | .date d => .text d.text
  | .time t => .text t.text
  | .moment m => .text m.isoText
  | .list items => .list (Value.encodedItems items)
  | .map entries => .map (Value.encodedEntries entries)
  | v => v

/-- What it holds in the place of the items of a list. -/
def Value.encodedItems : List Value → List Value
  | [] => []
  | v :: vs => v.encoded :: Value.encodedItems vs

/-- What it holds in the place of the entries of a map, under the same keys. -/
def Value.encodedEntries : List (Value × Value) → List (Value × Value)
  | [] => []
  | (k, v) :: rest => (k, v.encoded) :: Value.encodedEntries rest

/-- The value has a JSON text: the keys in it are texts, and the scalars are such that JSON has a place
for them. -/
def Value.HasJsonText : Value → Prop
  | .decimal d => d.isSignalling = false
  | .list items => Value.HaveJsonTexts items
  | .map entries => Value.HaveJsonEntries entries
  | .null | .bool _ | .int _ | .double _ | .text _ | .token _ | .date _ | .time _ | .moment _ => True
  | _ => False

/-- All of the values have JSON texts. -/
def Value.HaveJsonTexts : List Value → Prop
  | [] => True
  | v :: vs => v.HasJsonText ∧ Value.HaveJsonTexts vs

/-- All of the entries have keys that are texts and values that have JSON texts. -/
def Value.HaveJsonEntries : List (Value × Value) → Prop
  | [] => True
  | (k, v) :: rest => ((∃ s, k = .text s) ∧ v.HasJsonText) ∧ Value.HaveJsonEntries rest

end

mutual

/-- What such a value is encoded as is JSON. -/
theorem Value.isJson_encoded : ∀ v : Value, v.HasJsonText → v.encoded.IsJson
  | .list items, h => Value.jsonItems_encoded items h
  | .map entries, h => Value.jsonEntries_encoded entries h
  | .null, _ | .bool _, _ | .int _, _ | .double _, _ | .decimal _, _ | .text _, _ | .token _, _
  | .date _, _ | .time _, _ | .moment _, _ => trivial
  | .operator _, h | .guid _, h | .object _, h | .member .., h | .node .., h => h.elim

theorem Value.jsonItems_encoded :
    ∀ vs : List Value, Value.HaveJsonTexts vs → Value.JsonItems (Value.encodedItems vs)
  | [], _ => trivial
  | v :: vs, h => ⟨Value.isJson_encoded v h.1, Value.jsonItems_encoded vs h.2⟩

theorem Value.jsonEntries_encoded : ∀ es : List (Value × Value), Value.HaveJsonEntries es →
    Value.JsonEntries (Value.encodedEntries es)
  | [], _ => trivial
  | (k, v) :: rest, h => by
    obtain ⟨⟨⟨s, rfl⟩, hv⟩, hrest⟩ := h
    exact ⟨⟨rfl, trivial, Value.isJson_encoded v hv⟩, Value.jsonEntries_encoded rest hrest⟩

end

namespace Json

variable {layout : Layout}

mutual

/-- **The text of a value is that of the plain value which it holds.** -/
theorem write_encoded : ∀ (v : Value) {depth : Nat} {s : Text},
    write layout depth v = .ok s → write layout depth v.encoded = .ok s
  | .list items, depth, s, h => by
    rw [write] at h
    obtain ⟨texts, htexts, h⟩ := bind_eq_ok_iff.mp h
    rw [Value.encoded, write, writeItems_encoded items htexts]
    exact h
  | .map entries, depth, s, h => by
    rw [write] at h
    obtain ⟨texts, htexts, h⟩ := bind_eq_ok_iff.mp h
    rw [Value.encoded, write, writeEntries_encoded entries htexts]
    exact h
  | .decimal d, depth, s, h => by
    have hscalar : (if d.isSignalling then .error .badValue else writtenDouble layout d.toDouble) =
        .ok s := h
    split at hscalar
    · cases hscalar
    · exact hscalar
  | .token t, _, _, h => h
  | .date d, _, _, h | .time t, _, _, h | .moment m, _, _, h => h
  | .null, _, _, h | .bool _, _, _, h | .int _, _, _, h | .double _, _, _, h | .text _, _, _, h
  | .operator _, _, _, h | .guid _, _, _, h | .object _, _, _, h | .member .., _, _, h
  | .node .., _, _, h => h

theorem writeItems_encoded : ∀ (vs : List Value) {depth : Nat} {texts : List Text},
    writeItems layout depth vs = .ok texts →
      writeItems layout depth (Value.encodedItems vs) = .ok texts
  | [], _, _, h => h
  | v :: vs, depth, texts, h => by
    rw [writeItems] at h
    obtain ⟨s, hs, h⟩ := bind_eq_ok_iff.mp h
    obtain ⟨rest, hrest, h⟩ := bind_eq_ok_iff.mp h
    rw [Value.encodedItems, writeItems, write_encoded v hs, ok_bind, writeItems_encoded vs hrest]
    exact h

theorem writeEntries_encoded : ∀ (es : List (Value × Value)) {depth : Nat}
    {texts : List (Value × Text)}, writeEntries layout depth es = .ok texts →
      writeEntries layout depth (Value.encodedEntries es) = .ok texts
  | [], _, _, h => h
  | (k, v) :: rest, depth, texts, h => by
    rw [writeEntries] at h
    obtain ⟨key, hkey, h⟩ := bind_eq_ok_iff.mp h
    rw [Value.encodedEntries, writeEntries, hkey, ok_bind]
    cases key with
    | none =>
      dsimp only at h ⊢
      split at h
      · rw [if_pos ‹_›]
        exact writeEntries_encoded rest h
      · cases h
    | some key =>
      dsimp only at h ⊢
      obtain ⟨s, hs, h⟩ := bind_eq_ok_iff.mp h
      obtain ⟨others, hothers, h⟩ := bind_eq_ok_iff.mp h
      rw [write_encoded v hs, ok_bind, writeEntries_encoded rest hothers]
      exact h

end

section

variable (hnan : layout.allowNaN = true) (hsort : layout.sortKeys = false)

include hnan

theorem exists_writtenDouble (d : Double) : ∃ s, writtenDouble layout d = .ok s := by
  cases d
  case nan => exact ⟨_, if_pos hnan⟩
  case infinite => exact ⟨_, if_pos hnan⟩
  case finite => exact ⟨_, rfl⟩

include hsort

set_option linter.unusedSectionVars false in
mutual

theorem exists_write : ∀ (v : Value) (depth : Nat), v.HasJsonText →
    ∃ s, write layout depth v = .ok s
  | .list items, depth, h => by
    obtain ⟨texts, htexts⟩ := exists_writeItems items (depth + 1) h
    rw [write, htexts]
    exact ⟨_, rfl⟩
  | .map entries, depth, h => by
    obtain ⟨texts, htexts⟩ := exists_writeEntries entries (depth + 1) h
    rw [write, htexts, ok_bind, writtenMap, hsort]
    exact ⟨_, rfl⟩
  | .double d, _, _ => exists_writtenDouble hnan d
  | .decimal d, _, h => by
    obtain ⟨s, hs⟩ := exists_writtenDouble hnan d.toDouble
    refine ⟨s, ?_⟩
    show (if d.isSignalling then .error .badValue else writtenDouble layout d.toDouble) = .ok s
    rw [if_neg (by rw [h]; exact Bool.false_ne_true), hs]
  | .null, _, _ | .bool _, _, _ | .int _, _, _ | .text _, _, _ | .token _, _, _ | .date _, _, _
  | .time _, _, _ | .moment _, _, _ => ⟨_, rfl⟩
  | .operator _, _, h | .guid _, _, h | .object _, _, h | .member .., _, h | .node .., _, h => h.elim

theorem exists_writeItems : ∀ (vs : List Value) (depth : Nat), Value.HaveJsonTexts vs →
    ∃ texts, writeItems layout depth vs = .ok texts
  | [], _, _ => ⟨[], rfl⟩
  | v :: vs, depth, h => by
    obtain ⟨s, hs⟩ := exists_write v depth h.1
    obtain ⟨texts, htexts⟩ := exists_writeItems vs depth h.2
    rw [writeItems, hs, ok_bind, htexts]
    exact ⟨_, rfl⟩

theorem exists_writeEntries : ∀ (es : List (Value × Value)) (depth : Nat),
    Value.HaveJsonEntries es → ∃ texts, writeEntries layout depth es = .ok texts
  | [], _, _ => ⟨[], rfl⟩
  | (k, v) :: rest, depth, h => by
    obtain ⟨⟨⟨key, rfl⟩, hv⟩, hrest⟩ := h
    obtain ⟨s, hs⟩ := exists_write v depth hv
    obtain ⟨texts, htexts⟩ := exists_writeEntries rest depth hrest
    have hkey : keyText? layout (.text key) = .ok (some key) := rfl
    rw [writeEntries, hkey, ok_bind]
    dsimp only
    rw [hs, ok_bind, htexts]
    exact ⟨_, rfl⟩

end

end

/-- **Such a value has a JSON text**, and it is that of the plain value which the text holds. -/
theorem exists_toText {v : Value} (h : v.HasJsonText) :
    ∃ s, toText {} v = .ok s ∧ toText {} v.encoded = .ok s := by
  have hplain : ({} : Layout).allowNaN = true ∧ ({} : Layout).sortKeys = false := ⟨rfl, rfl⟩
  obtain ⟨s, hs⟩ := exists_write hplain.1 hplain.2 v 0 h
  exact ⟨s, hs, write_encoded v hs⟩

end Json

end RecordFilter
