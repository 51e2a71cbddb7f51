import Snippet.Proofs.ValueText
import Snippet.Run.Library

/-!
# Texts put together

Concatenation and `join` are made of texts of values that may have been cut, and have to notice it.
A cut text is longer than the limit by the mark at its end. So it is too long if the whole display
is, and so is everything of which it is a part (`SameWithin`); and a text that is not cut is the
display. What is within the limit in the end is therefore exact, and otherwise there is a fault
(`texts_exact`). Nothing that was cut is ever part of a result.

A separator is cut in the same way as an item. With fewer than two items it is not used, and then
its length does not matter.
-/

namespace Snippet.Run

variable {limit : Nat} {a b : Value} {s s' : String} {t t' : List Char}

/-- A text, or the fault that it is too long. -/
def textWithin (limit : Nat) (text : List Char) : Except Fault String :=
  if text.length ≤ limit then .ok (String.ofList text) else .error (.tooManyElements limit)

/-- A written text and the text that was meant are the same as far as a limit goes: there is no
difference, or both are too long. -/
def SameWithin (limit : Nat) (s : String) (t : List Char) : Prop :=
  s = String.ofList t ∨ limit < s.length ∧ limit < t.length

namespace SameWithin

theorem lt_length_iff (h : SameWithin limit s t) : limit < s.length ↔ limit < t.length := by
  obtain rfl | ⟨hs, ht⟩ := h
  · rw [String.length_ofList]
  · exact iff_of_true hs ht

theorem append (h : SameWithin limit s t) (h' : SameWithin limit s' t') :
    SameWithin limit (s ++ s') (t ++ t') := by
  have htooLong (hs : limit < s.length + s'.length) (ht : limit < t.length + t'.length) :
      SameWithin limit (s ++ s') (t ++ t') :=
    .inr ⟨by rwa [String.length_append], by rwa [List.length_append]⟩
  obtain rfl | ⟨hs, ht⟩ := h
  · obtain rfl | ⟨hs', ht'⟩ := h'
    · exact .inl String.ofList_append.symm
    · exact htooLong (by omega) (by omega)
  · exact htooLong (by omega) (by omega)

/-- What is held to the limit is what was meant. -/
theorem textWithin_eq (h : SameWithin limit s t) :
    textWithin limit t = if limit < s.length then .error (.tooManyElements limit) else .ok s := by
  rw [textWithin]
  obtain rfl | ⟨hs, ht⟩ := h
  · simp only [String.length_ofList, ← Nat.not_lt, ite_not]
  · rw [if_neg (Nat.not_le.2 ht), if_pos hs]

end SameWithin

/-- The text of a value stands for its display. -/
theorem sameWithin_toText (limit : Nat) (v : Value) :
    SameWithin limit (v.toText limit) v.display := by
  rw [SameWithin, ← String.toList_inj, String.toList_ofList, ← String.length_toList,
    Value.toList_toText]
  by_cases hfits : v.display.length ≤ limit
  · exact .inl (if_pos hfits)
  · refine .inr ⟨?_, by omega⟩
    rw [if_neg hfits, List.length_append, List.length_take_of_le (by omega), List.length_singleton]
    omega

/-! ### Concatenation -/

/-- The text of a value in a concatenation, where null is empty. -/
def operandText : Value → List Char
  | .null => []
  | v => v.display

theorem sameWithin_concatText (limit : Nat) (v : Value) :
    SameWithin limit (concatText limit v) (operandText v) := by
  by_cases hv : v = .null
  · rw [hv]
    exact .inl rfl
  · rw [concatText.eq_2 limit v hv, operandText.eq_2 v hv]
    exact sameWithin_toText limit v

theorem concat_eq (limit : Nat) (a b : Value) :
    concat limit a b = .string <$> textWithin limit (operandText a ++ operandText b) := by
  have hjoined := (sameWithin_concatText limit a).append (sameWithin_concatText limit b)
  rw [hjoined.textWithin_eq, concat]
  split <;> rfl

/-- A string on either side of `+` makes it a concatenation. -/
theorem apply_add_of_string (h : (∃ s, a = .string s) ∨ ∃ s, b = .string s) :
    apply limit .add a b = concat limit a b := by
  obtain ⟨s, rfl⟩ | ⟨s, rfl⟩ := h
  · rfl
  · cases a <;> rfl

/-! ### Lists -/

/-- The texts of some items, each behind the separator. -/
def separated (separator : Value) (items : List Value) : List Char :=
  (items.map Value.display).flatMap (separator.display ++ ·)

/-- Joining goes on behind a text that is within the limit, with the length of that text. -/
theorem joinFrom_eq (h : SameWithin limit s t) (hs : s.length ≤ limit) (separator : Value)
    (items : List Value) :
    joinFrom limit (separator.toText limit) s s.length items =
      textWithin limit (t ++ separated separator items) := by
  induction items generalizing s t with
  | nil =>
    show Except.ok s = textWithin limit (t ++ [])
    rw [List.append_nil, h.textWithin_eq, if_neg (Nat.not_lt.2 hs)]
  | cons item rest ih =>
    have hnext := (h.append (sameWithin_toText limit separator)).append
      (sameWithin_toText limit item)
    have htext : t ++ separated separator (item :: rest) =
        t ++ separator.display ++ item.display ++ separated separator rest := by
      simp only [separated, List.map_cons, List.flatMap_cons, List.append_assoc]
    rw [joinFrom, htext, ← String.length_append, ← String.length_append]
    split
    · next hlong =>
      have hmeant := hnext.lt_length_iff.1 hlong
      rw [textWithin, if_neg (by rw [List.length_append]; omega)]
    · next hfits => exact ih hnext (Nat.not_lt.1 hfits)

theorem joinOf_list (limit : Nat) (items : List Value) (separator : Value) :
    joinOf limit (.list items) separator =
      .string <$> textWithin limit (separator.display.intercalate (items.map Value.display)) := by
  cases items with
  | nil =>
    have hempty : ([] : List Char).length ≤ limit := Nat.zero_le limit
    rw [List.map_nil, List.intercalate_nil, textWithin, if_pos hempty]
    rfl
  | cons item rest =>
    have hitem := sameWithin_toText limit item
    rw [List.map_cons, intercalate_cons, joinOf]
    split
    · next hlong =>
      have hmeant := hitem.lt_length_iff.1 hlong
      rw [textWithin, if_neg (by rw [List.length_append]; omega)]
      rfl
    · next hfits =>
      rw [joinFrom_eq hitem (Nat.not_lt.1 hfits)]
      rfl

/-- **Exact texts.** Under any limit, adding two values of which one is a string gives exactly the
displays of both, one behind the other, where null adds nothing. Joining a list gives exactly the
displays of its items with that of the separator between them. If the text is longer than the limit,
either of them ends in a fault of capacity instead. -/
theorem texts_exact (limit : Nat) :
    (∀ a b : Value, (∃ s, a = .string s) ∨ (∃ s, b = .string s) →
      apply limit .add a b = .string <$> textWithin limit (operandText a ++ operandText b)) ∧
    (∀ (items : List Value) (separator : Value),
      helperValue limit .join [.list items, separator] =
        .string <$> textWithin limit (separator.display.intercalate (items.map Value.display))) ∧
    (Fault.tooManyElements limit).typeName = "CapacityExceededError" :=
  ⟨fun a b h ↦ (apply_add_of_string h).trans (concat_eq limit a b), joinOf_list limit, rfl⟩

/-- Five characters are just within the limit, whether they are added up or joined, and so the
result is the whole text. One more is too many, though each of the parts fits. -/
theorem texts_exact_atLimit :
    apply 5 .add (.int 12) (.string "abc") = .ok (.string "12abc") ∧
    helperValue 5 .join [.list [.int 1, .null], .string ""] = .ok (.string "1null") ∧
    apply 5 .add (.string "abcd") (.int 12) = .error (.tooManyElements 5) := by
  obtain ⟨hadd, hjoin, -⟩ := texts_exact 5
  refine ⟨?_, ?_, ?_⟩
  · rw [hadd _ _ (.inr ⟨_, rfl⟩)]
    rfl
  · rw [hjoin]
    rfl
  · rw [hadd _ _ (.inl ⟨_, rfl⟩)]
    rfl

end Snippet.Run
