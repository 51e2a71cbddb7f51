import Snippet.Proofs.Fences
import Snippet.Proofs.ValueText

/-!
# The cap on what is displayed

A value is displayed up to a cap: the texts of its elements are cut there, and no more of them are
taken once they pass it together. The cap is the limit on messages. This module shows that it cannot
be seen (`deliver_cap_eq`): with any greater cap the same message is sent.

What is displayed with two caps is the same up to the smaller of them, and either the same
altogether or longer than the smaller cap in both cases (`AlikeUpTo`). Such outputs are cut alike,
because the room of an output is never more than the limit on messages, and neither of them fits
into a field of a document. The one thing on which they could differ is the fence that a cut keeps
at the end of a text. A listing must not end in a fence with one cap and without one with the other,
and so its texts must be neither empty nor contain a backtick.
-/

namespace Snippet

namespace Text

variable {n k : Nat} {s t : List Char}

/-- Two texts that have the same beginning: they are the same, or both are longer than `n`
characters and have the first `n` in common. -/
def AlikeUpTo (n : Nat) (s t : List Char) : Prop :=
  s = t ∨ n < s.length ∧ n < t.length ∧ s.take n = t.take n

namespace AlikeUpTo

theorem take_eq (h : AlikeUpTo n s t) (hk : k ≤ n) : s.take k = t.take k := by
  obtain rfl | ⟨-, -, htake⟩ := h
  · rfl
  · have := congrArg (List.take k) htake
    rwa [List.take_take, List.take_take, Nat.min_eq_left hk] at this

theorem mono (h : AlikeUpTo n s t) (hk : k ≤ n) : AlikeUpTo k s t := by
  have htake := h.take_eq hk
  exact h.imp_right fun ⟨hs, ht, _⟩ ↦ ⟨by omega, by omega, htake⟩

/-- What stands in front of both texts makes them alike for longer. -/
theorem append_left (h : AlikeUpTo n s t) (front : List Char) :
    AlikeUpTo (front.length + n) (front ++ s) (front ++ t) := by
  obtain rfl | ⟨hs, ht, htake⟩ := h
  · exact .inl rfl
  · refine .inr ⟨?_, ?_, ?_⟩
    · rw [List.length_append]
      omega
    · rw [List.length_append]
      omega
    · rw [List.take_length_add_append, List.take_length_add_append, htake]

/-- What stands behind a text that is long enough does not matter. -/
theorem append_right (h : AlikeUpTo n s t) (hn : n < s.length) (behind behind' : List Char) :
    AlikeUpTo n (s ++ behind) (t ++ behind') := by
  have ht : n < t.length := h.elim (fun heq ↦ heq ▸ hn) fun hlong ↦ hlong.2.1
  refine .inr ⟨?_, ?_, ?_⟩
  · rw [List.length_append]
    omega
  · rw [List.length_append]
    omega
  · rw [List.take_append_of_le_length (Nat.le_of_lt hn),
      List.take_append_of_le_length (Nat.le_of_lt ht)]
    exact h.take_eq (Nat.le_refl n)

/-- The same for the last character of both texts. -/
theorem of_append_singleton {c : Char} (h : AlikeUpTo (n + 1) (s ++ [c]) (t ++ [c])) :
    AlikeUpTo n s t := by
  obtain heq | ⟨hs, ht, -⟩ := id h
  · exact .inl (List.append_cancel_right heq)
  · rw [List.length_append, List.length_singleton] at hs ht
    have htake := h.take_eq (Nat.le_succ n)
    rw [List.take_append_of_le_length (by omega), List.take_append_of_le_length (by omega)] at htake
    exact .inr ⟨by omega, by omega, htake⟩

/-- Texts that are alike are cut alike, if they do not differ in the fence at their end. -/
theorem cut_eq (h : AlikeUpTo n s t) (hk : k ≤ n) (hfence : fence <:+ s ↔ fence <:+ t) :
    cut s k = cut t k := by
  obtain rfl | ⟨hs, ht, -⟩ := id h
  · rfl
  · have hks : ¬ s.length ≤ k := by omega
    have hkt : ¬ t.length ≤ k := by omega
    have hfence : fence.isSuffixOf s = fence.isSuffixOf t := by
      rw [Bool.eq_iff_iff, List.isSuffixOf_iff_suffix, List.isSuffixOf_iff_suffix, hfence]
    rw [cut, cut, cutPlain, cutPlain, if_neg hks, if_neg hks, if_neg hkt, if_neg hkt, hfence,
      h.take_eq (show k - fence.length - 1 ≤ n by omega), h.take_eq (show k - 1 ≤ n by omega)]

end AlikeUpTo

/-- A text that may stand between double backticks. -/
def Quotable (s : List Char) : Prop :=
  s ≠ [] ∧ '`' ∉ s

instance (s : List Char) : Decidable (Quotable s) :=
  inferInstanceAs (Decidable (_ ∧ _))

end Text

open Text (AlikeUpTo Quotable)

/-! ### Texts with two caps -/

variable {limit cap : Nat}

theorem Value.alike_toText (hcap : limit ≤ cap) (v : Value) :
    AlikeUpTo limit (v.toText limit).toList (v.toText cap).toList := by
  rw [toList_toText, toList_toText]
  by_cases hlimit : v.display.length ≤ limit
  · rw [if_pos hlimit, if_pos (by omega)]
    exact .inl rfl
  · have hlength : (v.display.take limit).length = limit := List.length_take_of_le (by omega)
    refine .inr ⟨?_, ?_, ?_⟩
    · rw [if_neg hlimit, List.length_append, hlength]
      exact Nat.lt_succ_self limit
    · split
      · omega
      · rw [List.length_append, List.length_take, List.length_singleton]
        omega
    · rw [if_neg hlimit, List.take_append_of_le_length (by omega)]
      split
      · rw [List.take_take, Nat.min_self]
      · rw [List.take_append_of_le_length (by rw [List.length_take]; omega), List.take_take,
          List.take_take, Nat.min_self, Nat.min_eq_left hcap]

theorem Value.quotable_toText {v : Value} (h : Quotable v.display) (limit : Nat) :
    Quotable (v.toText limit).toList := by
  refine ⟨?_, backtick_notMem_toText h.2 limit⟩
  rw [toList_toText]
  split
  · exact h.1
  · simp

namespace Classified

section Lines

variable {α β : Type} {short long : α → β} {size : β → Nat} {line : β → List Char}

theorem mem_textsWithin {text : α → β} {chars : Nat} {items : List α} {b : β}
    (h : b ∈ textsWithin text size limit chars items) : ∃ a ∈ items, b = text a := by
  induction items generalizing chars with
  | nil => cases h
  | cons item rest ih =>
    rw [textsWithin] at h
    split at h
    · cases h
    · obtain rfl | h := List.mem_cons.1 h
      · exact ⟨item, .head _, rfl⟩
      · obtain ⟨a, ha, rfl⟩ := ih h
        exact ⟨a, .tail _ ha, rfl⟩

/-- Lines of texts with two caps are alike. The texts that are taken with both are the same, up to
one that alone passes the smaller cap, or up to where the smaller cap is passed. -/
theorem alike_textsWithin (hcap : limit ≤ cap) (hsize : ∀ b, size b ≤ (line b).length)
    (htext : ∀ a, short a = long a ∨
      limit < size (short a) ∧ AlikeUpTo limit (line (short a)) (line (long a)))
    {chars : Nat} (hchars : chars ≤ limit) (items : List α) :
    AlikeUpTo (limit - chars) ((textsWithin short size limit chars items).flatMap line)
      ((textsWithin long size cap chars items).flatMap line) := by
  induction items generalizing chars with
  | nil => exact .inl rfl
  | cons item rest ih =>
    have hline := hsize (short item)
    rw [textsWithin, textsWithin, if_neg (by omega), if_neg (by omega)]
    dsimp only
    rw [List.flatMap_cons, List.flatMap_cons]
    rcases Nat.lt_or_ge limit (chars + size (short item)) with hpast | hwithin
    · -- the smaller cap is passed, and what comes behind this line does not matter
      have hitem : AlikeUpTo (limit - chars) (line (short item)) (line (long item)) := by
        obtain heq | ⟨-, halike⟩ := htext item
        · exact .inl (congrArg line heq)
        · exact halike.mono (Nat.sub_le ..)
      exact hitem.append_right (by omega) _ _
    · have heq : short item = long item := (htext item).resolve_right fun h ↦ by omega
      rw [← heq]
      exact ((ih hwithin).append_left (line (short item))).mono (by omega)

end Lines

/-- Two texts that are alike are so in their lines as well, whatever these have in front of them. -/
theorem alike_line {n : Nat} {s t : List Char} (h : AlikeUpTo n s t) (hn : n < s.length)
    (front behind : List Char) : AlikeUpTo n (front ++ (s ++ behind)) (front ++ (t ++ behind)) :=
  ((h.append_right hn behind behind).append_left front).mono (Nat.le_add_left ..)

theorem toList_bullet (text : String) :
    (bullet text).toList = ['-', ' ', '`', '`'] ++ (text.toList ++ ['`', '`', '\n']) := by
  simp [bullet]

theorem toList_keyedBullet (key text : String) :
    (keyedBullet (key, text)).toList =
      ("- ``" ++ key ++ "``: ``").toList ++ (text.toList ++ ['`', '`', '\n']) := by
  simp [keyedBullet]

/-- The texts of an element with two caps are the same, or the first passes its cap and their lines
are alike. -/
theorem toText_cases (hcap : limit ≤ cap) (v : Value) :
    v.toText limit = v.toText cap ∨ limit < (v.toText limit).length ∧
      ∀ front behind : List Char, AlikeUpTo limit (front ++ ((v.toText limit).toList ++ behind))
        (front ++ ((v.toText cap).toList ++ behind)) := by
  have halike := v.alike_toText hcap
  obtain heq | ⟨hlong, -⟩ := id halike
  · exact .inl (String.toList_inj.1 heq)
  · exact .inr ⟨by rwa [String.length_toList] at hlong, alike_line halike hlong⟩

/-- The elements of a list, in lines with two caps. -/
theorem alike_items (hcap : limit ≤ cap) (items : List Value) :
    AlikeUpTo limit
      ((textsWithin (Value.toText limit) String.length limit 0 items).flatMap
        fun text ↦ (bullet text).toList)
      ((textsWithin (Value.toText cap) String.length cap 0 items).flatMap
        fun text ↦ (bullet text).toList) := by
  refine alike_textsWithin hcap (fun text ↦ ?_) (fun v ↦ ?_) (Nat.zero_le limit) items
  · rw [toList_bullet]
    simp only [List.length_append, String.length_toList]
    omega
  · simp only [toList_bullet]
    exact (toText_cases hcap v).imp_right fun h ↦ ⟨h.1, h.2 _ _⟩

/-- And the entries of a map. -/
theorem alike_entries (hcap : limit ≤ cap) (entries : List (String × Value)) :
    AlikeUpTo limit
      ((textsWithin (fun (k, v) ↦ (k, v.toText limit)) (fun (k, v) ↦ k.length + v.length) limit 0
        entries).flatMap fun entry ↦ (keyedBullet entry).toList)
      ((textsWithin (fun (k, v) ↦ (k, v.toText cap)) (fun (k, v) ↦ k.length + v.length) cap 0
        entries).flatMap fun entry ↦ (keyedBullet entry).toList) := by
  refine alike_textsWithin hcap (fun ⟨key, text⟩ ↦ ?_) (fun ⟨key, v⟩ ↦ ?_) (Nat.zero_le limit)
    entries
  · rw [toList_keyedBullet]
    simp only [List.length_append, String.length_toList, String.toList_append]
    omega
  · simp only [toList_keyedBullet]
    exact (toText_cases hcap v).imp (congrArg (key, ·)) fun h ↦
      ⟨Nat.lt_add_left key.length h.1, h.2 _ _⟩

/-- With a header in front of them, lines are alike for longer. -/
theorem alike_listing {header : String} {lines lines' : List String} (hheader : header ≠ "")
    (h : AlikeUpTo limit (lines.flatMap String.toList) (lines'.flatMap String.toList)) :
    AlikeUpTo (limit + 1) (header ++ String.join lines).toList
      (header ++ String.join lines').toList := by
  have hlength : 0 < header.toList.length :=
    List.length_pos_iff.2 (mt String.toList_eq_nil_iff.1 hheader)
  rw [String.toList_append, String.toList_append, String.toList_join, String.toList_join]
  exact (h.append_left header.toList).mono (by omega)

theorem quotable_getD {text? : Option String} {typeName : String}
    (h : ∀ text ∈ text?, Quotable text.toList) (htype : Quotable typeName.toList) :
    Quotable (text?.getD typeName).toList := by
  cases text? with
  | none => exact htype
  | some text => exact h text rfl

end Classified

/-- None of the texts in the listing of a value is empty or contains a backtick: neither the keys of
a map nor the elements of a list or map. -/
def Value.ListsQuotable : Value → Prop
  | .list items => ∀ v ∈ items, Quotable v.display
  | .map entries => ∀ e ∈ entries, Quotable e.1.toList ∧ Quotable e.2.display
  | _ => True

namespace Outcome

open Classified Report Text

/-- Two output blocks that no report within a limit can tell apart. -/
structure SameOutput (limit : Nat) (b b' : String × Bool) : Prop where
  rich : b.2 = b'.2
  alike : AlikeUpTo limit b.1.toList b'.1.toList
  cut : ∀ room ≤ limit,
    Text.cut (trimBreaks b.1.toList) room = Text.cut (trimBreaks b'.1.toList) room

variable {settings : Settings}

theorem SameOutput.refl (limit : Nat) (b : String × Bool) : SameOutput limit b b :=
  ⟨rfl, .inl rfl, fun _ _ ↦ rfl⟩

/-- Blocks of code with texts that are alike. -/
theorem SameOutput.fenced {s t : String} (h : AlikeUpTo limit s.toList t.toList)
    (hs : '`' ∉ s.toList) (ht : '`' ∉ t.toList) :
    SameOutput limit (outputBlock settings (.scalar s)) (outputBlock settings (.scalar t)) := by
  obtain heq | ⟨hlong, -⟩ := id h
  · rw [String.toList_inj.1 heq]
    exact .refl ..
  · have hblock : AlikeUpTo limit (Outcome.fenced settings s).toList
        (Outcome.fenced settings t).toList := by
      have := alike_line h hlong (fence ++ (settings.codeLanguage.toList ++ ['\n'])) fence
      simpa [toList_fenced] using this
    have hsuffix (text : String) : fence <:+ (Outcome.fenced settings text).toList := by
      rw [toList_fenced]
      exact List.suffix_append ..
    rw [outputBlock, outputBlock, isFenced_eq_false hs, isFenced_eq_false ht]
    refine ⟨rfl, hblock, fun room hroom ↦ ?_⟩
    show Text.cut (trimBreaks (Outcome.fenced settings s).toList) room =
      Text.cut (trimBreaks (Outcome.fenced settings t).toList) room
    rw [trimBreaks_fenced, trimBreaks_fenced]
    exact hblock.cut_eq hroom (iff_of_true (hsuffix s) (hsuffix t))

/-- Listings that are alike, if none of them ends in a fence. -/
theorem SameOutput.listing {form form' : Classified} {last last' display display' : String}
    (hlast : form.lastQuoted? = some last) (hlast' : form'.lastQuoted? = some last')
    (hdisplay : form.displayText? = some display) (hdisplay' : form'.displayText? = some display')
    (h : AlikeUpTo (limit + 1) display.toList display'.toList)
    (hq : Quotable last.toList) (hq' : Quotable last'.toList) :
    SameOutput limit (outputBlock settings form) (outputBlock settings form') := by
  have hend {last : String} (hq : Quotable last.toList) :
      ¬ (last = "" ∨ last.toList.getLast? = some '`') := by
    rintro (rfl | hlast)
    · exact hq.1 rfl
    · exact hq.2 (List.mem_of_getLast? hlast)
  obtain ⟨hbreak, hfence⟩ := trimBreaks_display hlast hdisplay
  obtain ⟨hbreak', hfence'⟩ := trimBreaks_display hlast' hdisplay'
  have htrimmed : AlikeUpTo limit (trimBreaks display.toList) (trimBreaks display'.toList) := by
    rw [hbreak, hbreak'] at h
    exact h.of_append_singleton
  rw [outputBlock_of_lastQuoted hlast hdisplay, outputBlock_of_lastQuoted hlast' hdisplay']
  refine ⟨rfl, h.mono (Nat.le_succ limit), fun room hroom ↦ htrimmed.cut_eq hroom ?_⟩
  exact iff_of_false (mt hfence.1 (hend hq)) (mt hfence'.1 (hend hq'))

/-- What is shown of a value does not depend on the cap. -/
theorem sameOutput_ofValue (hcap : limit ≤ cap) {v : Value} (hv : v.ListsQuotable) :
    SameOutput limit (outputBlock settings (.ofValue limit v))
      (outputBlock settings (.ofValue cap v)) := by
  have hscalar {v : Value} (hv : '`' ∉ v.display) :
      SameOutput limit (outputBlock settings (.scalar (v.toText limit)))
        (outputBlock settings (.scalar (v.toText cap))) :=
    .fenced (v.alike_toText hcap) (Value.backtick_notMem_toText hv limit)
      (Value.backtick_notMem_toText hv cap)
  cases v with
  | bool b => exact hscalar (Value.backtick_notMem_display_bool b)
  | int i => exact hscalar (Value.backtick_notMem_display_int i)
  | float x => exact hscalar (Value.backtick_notMem_display_float x)
  | list items =>
    have hlast (n : Nat) : Quotable ((textsWithin (Value.toText n) String.length n 0
        items).getLast?.getD "list").toList := by
      refine quotable_getD (fun text htext ↦ ?_) (by decide)
      obtain ⟨v, hmem, rfl⟩ := mem_textsWithin (List.mem_of_getLast? htext)
      exact Value.quotable_toText (hv v hmem) n
    refine .listing rfl rfl rfl rfl (alike_listing (by decide) ?_) (hlast limit) (hlast cap)
    rw [List.flatMap_map, List.flatMap_map]
    exact alike_items hcap items
  | map entries =>
    have hlast (n : Nat) : Quotable (((textsWithin (fun (k, v) ↦ (k, v.toText n))
        (fun (k, v) ↦ k.length + v.length) n 0 entries).getLast?.map Prod.snd).getD
          "map").toList := by
      refine quotable_getD (fun text htext ↦ ?_) (by decide)
      obtain ⟨e, he, rfl⟩ := Option.map_eq_some_iff.1 htext
      obtain ⟨⟨key, v⟩, hmem, rfl⟩ := mem_textsWithin (List.mem_of_getLast? he)
      exact Value.quotable_toText (hv (key, v) hmem).2 n
    refine .listing rfl rfl rfl rfl (alike_listing (by decide) ?_) (hlast limit) (hlast cap)
    rw [List.flatMap_map, List.flatMap_map]
    exact alike_entries hcap entries
  | _ => exact .refl ..

/-! ### Reports -/

variable {r : Report} {b b' : String × Bool}

/-- The report with another output block. -/
def withOutput (b : String × Bool) (r : Report) : Report :=
  { r with output := some b.1, rich := b.2 }

/-- An output that is too long for a field leaves no document. -/
theorem isEmbeddable_eq_false {fieldLimit : Nat} (h : fieldLimit < b.1.length) (r : Report) :
    (withOutput b r).isEmbeddable fieldLimit = false := by
  have hblock : ("Output", b.1) ∈ (withOutput b r).blocks := by simp [blocks, withOutput]
  rw [isEmbeddable, Bool.and_eq_false_iff]
  refine .inr (List.all_eq_false.2 ⟨_, hblock, ?_⟩)
  simpa using h

/-- Output blocks that cannot be told apart are delivered alike. -/
theorem SameOutput.deliver_eq {limits : SizeLimits} (h : SameOutput limits.message b b')
    (hlimits : limits.field ≤ limits.message) (hdiagnostics : r.diagnostics = Option.none)
    (hexception : r.exception = Option.none) :
    (withOutput b r).deliver limits = (withOutput b' r).deliver limits := by
  obtain heq | ⟨hlong, hlong', -⟩ := h.alike
  · rw [show b = b' from Prod.ext (String.toList_inj.1 heq) h.rich]
  · rw [String.length_toList] at hlong hlong'
    have hshows (b : String × Bool) : (withOutput b r).ShowsOutput b.1 :=
      ⟨rfl, hdiagnostics, hexception⟩
    have hroom : (withOutput b r).outputRoom limits.message ≤ limits.message := Nat.sub_le ..
    rw [deliver_of_not_embeddable (isEmbeddable_eq_false (by omega) r),
      deliver_of_not_embeddable (isEmbeddable_eq_false (by omega) r),
      plainBounded_of_showsOutput (hshows b), plainBounded_of_showsOutput (hshows b'),
      h.cut _ hroom]
    rfl

/-- Only the output block of the report on a success depends on how the value is displayed. -/
theorem report_eq_withOutput {context : Context} {source : String} {value : Option Value}
    {compileTime execTime : Time} (form form' : Classified) :
    (Outcome.success value compileTime execTime).report settings context source form' =
      ((Outcome.success value compileTime execTime).report settings context source form).map
        (withOutput (outputBlock settings form')) := by
  unfold report
  cases context.avatar with
  | error _ => rfl
  | ok icon =>
    cases context.accent with
    | error _ => rfl
    | ok color => rfl

/-- **The cap cannot be seen.** Under settings that are admitted, and for a value with no empty text
and no backtick in its listing, displaying the value with any cap of at least the limit on messages
delivers what displaying it with that limit delivers. -/
theorem deliver_cap_eq {settings : Settings} (hvalid : settings.validate = .ok settings)
    {cap : Nat} (hcap : settings.messageLimit ≤ cap) {value : Option Value}
    (hvalue : ∀ v ∈ value, v.ListsQuotable) (context : Context) (source : String)
    (compileTime execTime : Time) :
    ((Outcome.success value compileTime execTime).report settings context source
        (.ofOption cap value)).map (Report.deliver settings.sizeLimits) =
      ((Outcome.success value compileTime execTime).report settings context source
        (.ofOption settings.messageLimit value)).map (Report.deliver settings.sizeLimits) := by
  obtain ⟨-, -, hfield, -⟩ := Settings.validate_eq_ok_iff.1 hvalid
  have hsame : SameOutput settings.sizeLimits.message
      (outputBlock settings (.ofOption settings.messageLimit value))
      (outputBlock settings (.ofOption cap value)) := by
    cases value with
    | none => exact .refl ..
    | some v => exact sameOutput_ofValue hcap (hvalue v rfl)
  rw [report_eq_withOutput (.ofOption settings.messageLimit value) (.ofOption cap value)]
  cases hreport : (Outcome.success value compileTime execTime).report settings context source
      (.ofOption settings.messageLimit value) with
  | error _ => rfl
  | ok r =>
    obtain ⟨hshows, hrich⟩ := showsOutput_of_report hreport
    have hself : withOutput (outputBlock settings (.ofOption settings.messageLimit value)) r =
        r := by
      rw [withOutput, ← hshows.output, ← hrich]
    have hdeliver := hsame.deliver_eq hfield hshows.diagnostics hshows.exception
    rw [hself] at hdeliver
    exact congrArg Except.ok hdeliver.symm

/-- Settings that admit messages of 96 characters. -/
def shortMessages : Settings :=
  { Settings.standard with fieldLimit := 16, messageLimit := 96, title := "R", codeLanguage := "" }

/-- A list of a number, a text that a message cannot hold, and a third element that is taken with a
greater cap only. -/
def unevenList : Value :=
  .list [.int 7, .string (String.ofList (List.replicate 98 'a')), .list [.null]]

/-- Of the output, in which the forms of the list differ, a message has room for the beginning. -/
theorem deliver_cap_eq_unevenList :
    shortMessages.validate = .ok shortMessages ∧
    Classified.ofValue 96 unevenList ≠ Classified.ofValue 100 unevenList ∧
    ((Outcome.success (some unevenList) none none).report shortMessages plainHost "x"
        (.ofOption 100 (some unevenList))).map (Report.deliver shortMessages.sizeLimits) =
      ((Outcome.success (some unevenList) none none).report shortMessages plainHost "x"
        (.ofOption 96 (some unevenList))).map (Report.deliver shortMessages.sizeLimits) ∧
    (((Outcome.success (some unevenList) none none).report shortMessages plainHost "x"
        (.ofOption 96 (some unevenList))).map (Report.deliver shortMessages.sizeLimits)).toOption =
      some ⟨.ofText ("**R**\nType: `list`\n**Input**\n```\nx```\n**Output**\n" ++
        "Enumerable of type ``list``\n- ``7``\n- ``aaaaaa…"), false⟩ := by
  have hvalid : shortMessages.validate = .ok shortMessages := rfl
  have hvalue : ∀ v ∈ some unevenList, v.ListsQuotable := by
    intro v hv
    obtain rfl := Option.some.inj hv
    simp only [unevenList, Value.ListsQuotable, List.forall_mem_cons]
    exact ⟨by decide +kernel, by decide +kernel, by decide +kernel, List.forall_mem_nil _⟩
  exact ⟨hvalid, by decide +kernel,
    deliver_cap_eq hvalid (by decide) hvalue plainHost "x" none none, by decide +kernel⟩

end Outcome

end Snippet
