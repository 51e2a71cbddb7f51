import Snippet.Proofs.JoinedText

/-!
# Texts that helpers give

Six helpers give a string. None of them should give one that is longer than the limit, but for a
mark on a line of its own. This module says when they do.

* `str` cuts its text (`length_toText`), and `join` refuses it (`length_le_of_textWithin`).
* `inspect` counts its first line and then every other one, so it stops in time if the first line
  is within the limit (`length_addLines_le`). That of a collection is, but that of any other value
  holds its text, and nothing looks at it.
* `upper` and `lower` look at no limit, though the image of a letter may be several letters.

`Overlong` are the calls for which the text gets too long, and `texts_within_iff` says that there
are no others.
-/

namespace Snippet.Text

/-- Whether the upper case of a character is so many characters. -/
def growsTo (n : Nat) (c : Char) : Bool :=
  (upperChar c).length == n

/-- A character becomes at most three. -/
theorem length_upperChar (c : Char) :
    (upperChar c).length = 1 + [c].countP (growsTo 2) + 2 * [c].countP (growsTo 3) := by
  have hsequences : ∀ entry ∈ upperSequences, entry.2.length = 2 ∨ entry.2.length = 3 := by
    decide +kernel
  have hlength : (upperChar c).length = 1 ∨ (upperChar c).length = 2 ∨
      (upperChar c).length = 3 := by
    rw [upperChar]
    split
    · next sequence hsequence =>
      obtain ⟨front, behind, heq, -⟩ := List.lookup_eq_some_iff.1 hsequence
      rw [List.length_map]
      exact .inr (hsequences (c.toNat, sequence) (heq ▸ List.mem_append_right _ (.head _)))
    · exact .inl rfl
  rw [List.countP_singleton, List.countP_singleton, growsTo, growsTo]
  obtain h | h | h := hlength <;> rw [h] <;> rfl

/-- The upper case of a text is longer by what its characters get longer. -/
theorem length_flatMap_upperChar (s : List Char) :
    (s.flatMap upperChar).length =
      s.length + s.countP (growsTo 2) + 2 * s.countP (growsTo 3) := by
  induction s with
  | nil => rfl
  | cons c rest ih =>
    have hsplit (p : Char → Bool) : (c :: rest).countP p = [c].countP p + rest.countP p := by
      rw [← List.countP_append, List.singleton_append]
    rw [List.flatMap_cons, List.length_append, length_upperChar, ih, hsplit, hsplit,
      List.length_cons]
    omega

theorem length_upper (s : String) :
    (upper s).length =
      s.length + s.toList.countP (growsTo 2) + 2 * s.toList.countP (growsTo 3) := by
  rw [upper, String.length_ofList, length_flatMap_upperChar, String.length_toList]

theorem length_lowerChar (c : Char) : (lowerChar c).length = 1 + [c].count 'İ' := by
  rw [lowerChar, List.count_singleton]
  split
  · next h =>
    rw [h]
    rfl
  · next h =>
    rw [if_neg (by simpa using h)]
    rfl

/-- In lower case only one character becomes two. -/
theorem length_lowerFrom (before s : List Char) :
    (lowerFrom before s).length = s.length + s.count 'İ' := by
  induction s generalizing before with
  | nil => rfl
  | cons c rest ih =>
    have hsplit : (c :: rest).count 'İ' = [c].count 'İ' + rest.count 'İ' := by
      rw [← List.count_append, List.singleton_append]
    rw [lowerFrom, List.length_append, ih, List.length_cons, hsplit]
    split
    · next hsigma =>
      have hc : [c].count 'İ' = 0 := by
        rw [hsigma]
        decide
      rw [hc]
      split <;> (rw [List.length_singleton]; omega)
    · rw [length_lowerChar]
      omega

theorem length_lower (s : String) : (lower s).length = s.length + s.toList.count 'İ' := by
  rw [lower, String.length_ofList, length_lowerFrom, String.length_toList]

end Snippet.Text

namespace Snippet.Run

open Script (Builtin)

variable {limit : Nat} {v : Value}

/-! ### Texts of values -/

/-- The text of a value is longer than the limit by a mark at most. -/
theorem length_toText (limit : Nat) (v : Value) :
    (v.toText limit).length = min v.display.length (limit + 1) := by
  rw [← String.length_toList, Value.toList_toText]
  split
  · omega
  · rw [List.length_append, List.length_take_of_le (by omega), List.length_singleton]
    omega

theorem length_le_of_textWithin {text : List Char} {s : String}
    (h : textWithin limit text = .ok s) : s.length ≤ limit := by
  rw [textWithin] at h
  split at h
  · cases h
    rwa [String.length_ofList]
  · cases h

theorem length_typeName_le (v : Value) : v.typeName.length ≤ 12 := by
  cases v with
  | object kind _ _ =>
    rw [Value.typeName]
    cases kind <;> decide
  | _ =>
    rw [Value.typeName]
    decide

/-! ### Inspections -/

/-- The first line of an inspection. -/
def heading (limit : Nat) : Value → String
  | .list items => "Inspection of `list` (" ++ toString items.length ++ " items)"
  | .map entries => "Inspection of `map` (" ++ toString entries.length ++ " entries)"
  | .object kind _ _ => "Inspection of `" ++ kind.name ++ "`"
  | v => "Inspection of `" ++ v.typeName ++ "`: " ++ v.toText limit

/-- What has a line of its own in an inspection. -/
def elements : Value → List (String × Value)
  | .list items => items.zipIdx.map fun (item, i) ↦ ("[" ++ toString i ++ "]", item)
  | .map entries => entries
  | .object _ fields _ => fields
  | _ => []

theorem inspection_eq (limit : Nat) (v : Value) :
    inspection limit v = addLines limit (heading limit v).length (heading limit v)
      (inspectionLines limit (elements v)) := by
  cases v <;> rfl

theorem length_line (text line : String) :
    (text ++ "\n" ++ line).length = text.length + line.length + 1 := by
  rw [String.length_append, String.length_append]
  show text.length + 1 + line.length = _
  omega

/-- Lines that are added to a text within the limit lead at most to the mark. -/
theorem length_addLines_le {text : String} (h : text.length ≤ limit) (lines : List String) :
    (addLines limit text.length text lines).length ≤ limit + 2 := by
  induction lines generalizing text with
  | nil => exact Nat.le_trans h (Nat.le_add_right _ _)
  | cons line rest ih =>
    rw [addLines]
    split
    · rw [String.length_append]
      exact Nat.add_le_add_right h 2
    · next hfits =>
      rw [← length_line]
      exact ih (by rw [length_line]; omega)

/-- To a text that is longer already they add the mark. -/
theorem lt_length_addLines {text : String} (h : limit < text.length) {lines : List String}
    (hlines : lines ≠ []) : limit + 2 < (addLines limit text.length text lines).length := by
  obtain ⟨line, rest, rfl⟩ := List.exists_cons_of_ne_nil hlines
  rw [addLines, if_pos (by omega), String.length_append]
  exact Nat.add_lt_add_right h 2

/-- An inspection with lines behind the first is within the limit exactly if the first line is. -/
theorem length_inspection_le_iff (h : limit < (heading limit v).length → elements v ≠ []) :
    (inspection limit v).length ≤ limit + 2 ↔ (heading limit v).length ≤ limit := by
  rw [inspection_eq]
  constructor
  · intro hle
    refine Nat.not_lt.1 fun hlt ↦ Nat.not_lt.2 hle (lt_length_addLines hlt ?_)
    exact mt List.map_eq_nil_iff.1 (h hlt)
  · exact fun hle ↦ length_addLines_le hle _

/-! ### Calls -/

/-- The helpers that give a string. -/
def givesText : Builtin → Bool
  | .inspect | .str | .typeOf | .join | .upper | .lower => true
  | _ => false

/-- A call is a fault, or gives a string that is within the limit but for a mark on a line of its
own. -/
def KeepsTo (limit : Nat) : Except Fault Value → Prop
  | .error _ => True
  | .ok (.string s) => s.length ≤ limit + 2
  | .ok _ => False

/-- The calls of which the text gets too long: of `upper`, where too many letters become two or
three, and of `lower`, where too many dotted capitals become two; of `inspect`, where the text of a
value that is no collection does not fit into the first line, or the number of elements alone does
not. -/
def Overlong (limit : Nat) : Builtin → Value → Prop
  | .upper, .string s =>
    limit + 2 < s.length + s.toList.countP (Text.growsTo 2) +
      2 * s.toList.countP (Text.growsTo 3)
  | .lower, .string s => limit + 2 < s.length + s.toList.count 'İ'
  | .inspect, .list items => limit < 29 + (toString items.length).length
  | .inspect, .map entries => limit < 30 + (toString entries.length).length
  | .inspect, .object _ _ _ => False
  | .inspect, v => limit < 16 + v.typeName.length + v.display.length
  | _, _ => False

theorem length_framed (before text behind : String) :
    (before ++ text ++ behind).length = before.length + behind.length + text.length := by
  rw [String.length_append, String.length_append]
  omega

/-- The first line of what is no collection is all of its inspection. -/
theorem within_inspect_simple (hv : v.isCollection = false) :
    (inspection limit v).length ≤ limit + 2 ↔
      ¬ limit < 16 + v.typeName.length + v.display.length := by
  have hlength : (inspection limit v).length =
      18 + v.typeName.length + (v.toText limit).length := by
    have hheading : inspection limit v =
        "Inspection of `" ++ v.typeName ++ "`: " ++ v.toText limit := by
      cases v <;> first | rfl | cases hv
    have hframe : "Inspection of `".length + "`: ".length = 18 := by decide
    rw [hheading, String.length_append, length_framed, hframe]
  rw [hlength, length_toText]
  omega

theorem within_inspect (hlimit : 64 ≤ limit) (v : Value) :
    (inspection limit v).length ≤ limit + 2 ↔ ¬ Overlong limit .inspect v := by
  -- without elements there is one digit, and without digits there is even less
  have hshort {v : Value} (h : elements v = [] → (heading limit v).length ≤ 64) :
      limit < (heading limit v).length → elements v ≠ [] :=
    fun hlt hnil ↦ absurd (h hnil) (by omega)
  have hzero : (toString 0).length = 1 := by decide
  cases v with
  | list items =>
    have hframe : "Inspection of `list` (".length + " items)".length = 29 := by decide
    have hheading : (heading limit (.list items)).length = 29 + (toString items.length).length := by
      rw [← hframe]
      exact length_framed ..
    refine (length_inspection_le_iff (hshort fun hnil ↦ ?_)).trans ?_
    · obtain rfl : items = [] := by simpa [elements] using hnil
      rw [hheading, List.length_nil, hzero]
      decide
    · rw [hheading]
      exact Nat.not_lt.symm
  | map entries =>
    have hframe : "Inspection of `map` (".length + " entries)".length = 30 := by decide
    have hheading : (heading limit (.map entries)).length =
        30 + (toString entries.length).length := by
      rw [← hframe]
      exact length_framed ..
    refine (length_inspection_le_iff (hshort fun hnil ↦ ?_)).trans ?_
    · obtain rfl : entries = [] := hnil
      rw [hheading, List.length_nil, hzero]
      decide
    · rw [hheading]
      exact Nat.not_lt.symm
  | object kind fields text =>
    have hframe : "Inspection of `".length + "`".length = 16 := by decide
    have hname : kind.name.length ≤ 12 := length_typeName_le (.object kind fields text)
    have hheading : (heading limit (.object kind fields text)).length = 16 + kind.name.length := by
      rw [← hframe]
      exact length_framed ..
    refine (length_inspection_le_iff (hshort fun _ ↦ by omega)).trans ?_
    exact iff_of_true (by omega) not_false
  | _ => exact within_inspect_simple rfl

/-- **Texts within the limit.** The six helpers that give a string keep to a limit of 64 characters
or more, whatever the arguments are, except in the calls that are named. -/
theorem texts_within_iff (hlimit : 64 ≤ limit) {b : Builtin} (hb : givesText b = true)
    (args : List Value) :
    KeepsTo limit (helperValue limit b args) ↔ ¬ Overlong limit b (argument args 0) := by
  have hkept {s : String} (h : s.length ≤ limit + 2) : KeepsTo limit (.ok (.string s)) ↔ ¬ False :=
    iff_of_true h not_false
  cases b with
  | inspect => exact within_inspect hlimit (argument args 0)
  | str =>
    refine hkept ?_
    rw [length_toText]
    omega
  | typeOf =>
    have hname := length_typeName_le (argument args 0)
    exact hkept (by omega)
  | join =>
    show KeepsTo limit (joinOf limit (argument args 0) (argument args 1)) ↔ ¬ False
    refine iff_of_true ?_ not_false
    cases argument args 0 with
    | list items =>
      rw [joinOf_list]
      rcases htext : textWithin limit _ with fault | s
      · trivial
      · exact Nat.le_trans (length_le_of_textWithin htext) (Nat.le_add_right _ _)
    | _ => trivial
  | upper =>
    show KeepsTo limit (mapText "upper" Text.upper (argument args 0)) ↔ _
    cases argument args 0 with
    | string s =>
      show (Text.upper s).length ≤ limit + 2 ↔ _
      rw [Text.length_upper]
      exact Nat.not_lt.symm
    | _ => exact iff_of_true trivial not_false
  | lower =>
    show KeepsTo limit (mapText "lower" Text.lower (argument args 0)) ↔ _
    cases argument args 0 with
    | string s =>
      show (Text.lower s).length ≤ limit + 2 ↔ _
      rw [Text.length_lower]
      exact Nat.not_lt.symm
    | _ => exact iff_of_true trivial not_false
  | _ => cases hb

/-- One letter more is no harm to a short text. Forty-three letters are too many for an inspection,
with the twenty-four characters in front of them. -/
theorem texts_within_iff_sixtyFour :
    64 ≤ 64 ∧ givesText .upper = true ∧ givesText .inspect = true ∧
      KeepsTo 64 (helperValue 64 .upper [.string "straße"]) ∧
      ¬ KeepsTo 64 (helperValue 64 .inspect [.string (String.ofList (List.replicate 43 'a'))]) := by
  have hupper : ¬ Overlong 64 .upper (.string "straße") := by
    show ¬ 64 + 2 < "straße".length + "straße".toList.countP (Text.growsTo 2) +
      2 * "straße".toList.countP (Text.growsTo 3)
    decide +kernel
  have hinspect : Overlong 64 .inspect (.string (String.ofList (List.replicate 43 'a'))) := by
    show 64 < 16 + "string".length + (String.ofList (List.replicate 43 'a')).toList.length
    decide +kernel
  exact ⟨Nat.le_refl 64, rfl, rfl, (texts_within_iff (Nat.le_refl 64) rfl [_]).2 hupper,
    fun h ↦ (texts_within_iff (Nat.le_refl 64) rfl [_]).1 h hinspect⟩

/-- As many letters as the limit allows become twice as many in upper case. -/
theorem upper_outgrows :
    (String.ofList (List.replicate 64 'ß')).length = 64 ∧
      helperValue 64 .upper [.string (String.ofList (List.replicate 64 'ß'))] =
        .ok (.string (String.ofList (List.replicate 128 'S'))) ∧
      ¬ KeepsTo 64 (helperValue 64 .upper [.string (String.ofList (List.replicate 64 'ß'))]) := by
  have himage : (List.replicate 64 'ß').flatMap Text.upperChar = List.replicate 128 'S' := by
    decide +kernel
  have hupper : helperValue 64 .upper [.string (String.ofList (List.replicate 64 'ß'))] =
      .ok (.string (String.ofList (List.replicate 128 'S'))) := by
    show Except.ok (Value.string (Text.upper _)) = _
    rw [Text.upper, String.toList_ofList, himage]
  refine ⟨String.length_ofList, hupper, ?_⟩
  rw [hupper]
  show ¬ (String.ofList (List.replicate 128 'S')).length ≤ 66
  rw [String.length_ofList, List.length_replicate]
  decide

end Snippet.Run
