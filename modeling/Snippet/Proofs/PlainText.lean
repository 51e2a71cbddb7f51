import Snippet.Proofs.ReportSize

/-!
# What a shortened report keeps

The plain text of a report is cut block by block, and each block loses what the whole text has too
much. This module says exactly what is left (`plainBounded_exact`): a text that fits is untouched;
one that does not has exactly as many characters as it may have, with everything in it but the ends
of the messages, the exception and the output; and only where the rest of the text is too long by
itself (`emptied`) is the whole cut.

The loop is followed by induction on the blocks that it has yet to visit. What carries the induction
is that the length of a plain text is that of the text with empty blocks and the lengths of the
blocks (`length_plain`), so that a cut of one block shortens the text by as much.
-/

namespace Snippet

namespace Text

/-- A cut that loses something ends in a mark or a fence, or leaves nothing. -/
theorem getLast?_cut {s : List Char} {limit : Nat} (hs : s.getLast? ≠ some '\n') :
    (cut s limit).getLast? ≠ some '\n' := by
  unfold cut cutPlain
  repeat' split
  all_goals simp [*, fence, ellipsis]

/-- With no room there is no mark either. -/
theorem cut_zero (s : List Char) : cut s 0 = [] := by
  cases s <;> simp [cut, cutPlain]

end Text

section Lines

variable {α : Type} (sep : List α)

theorem intercalate_append {first rest : List (List α)} (hfirst : first ≠ []) (hrest : rest ≠ []) :
    sep.intercalate (first ++ rest) = sep.intercalate first ++ sep ++ sep.intercalate rest := by
  induction first with
  | nil => exact absurd rfl hfirst
  | cons line first ih =>
    cases first with
    | nil =>
      obtain ⟨next, rest, rfl⟩ := List.exists_cons_of_ne_nil hrest
      simp
    | cons second first =>
      have := ih (List.cons_ne_nil second first)
      simp_all [List.intercalate_cons_cons]

/-- A text starts as the text that is made of its first lines. -/
theorem prefix_intercalate (first rest : List (List α)) :
    sep.intercalate first <+: sep.intercalate (first ++ rest) := by
  rcases first with - | ⟨line, first⟩
  · exact List.nil_prefix
  rcases rest with - | ⟨next, rest⟩
  · simp
  · rw [intercalate_append sep (List.cons_ne_nil _ _) (List.cons_ne_nil _ _), List.append_assoc]
    exact List.prefix_append ..

/-- A text ends as the text that is made of its last lines. -/
theorem suffix_intercalate (first rest : List (List α)) :
    sep.intercalate rest <:+ sep.intercalate (first ++ rest) := by
  rcases rest with - | ⟨next, rest⟩
  · exact List.nil_suffix
  rcases first with - | ⟨line, first⟩
  · exact List.suffix_rfl
  · rw [intercalate_append sep (List.cons_ne_nil _ _) (List.cons_ne_nil _ _)]
    exact List.suffix_append ..

/-- Every line stands in the text that is made of the lines. -/
theorem infix_intercalate {line : List α} {lines : List (List α)} (h : line ∈ lines) :
    line <:+: sep.intercalate lines := by
  obtain ⟨first, rest, rfl⟩ := List.append_of_mem h
  have hline : line <+: sep.intercalate (line :: rest) := by
    simpa using prefix_intercalate sep [line] rest
  exact hline.isInfix.trans (suffix_intercalate sep first (line :: rest)).isInfix

/-- With one more separator at its end, a text has each of its lines before a separator. -/
theorem intercalate_append_singleton (mark : α) {lines : List (List α)} (h : lines ≠ []) :
    [mark].intercalate lines ++ [mark] = lines.flatMap (· ++ [mark]) := by
  induction lines with
  | nil => exact absurd rfl h
  | cons first rest ih =>
    cases rest with
    | nil => simp
    | cons second rest =>
      have := ih (List.cons_ne_nil second rest)
      rw [List.intercalate_cons_cons, List.flatMap_cons, ← this]
      simp

end Lines

namespace Report

variable {limit : Nat} {r : Report} {p q : Part}

/-! ### Text without breaks at its end -/

theorem getLast?_trimBreaks (s : List Char) : (trimBreaks s).getLast? ≠ some '\n' := by
  rw [trimBreaks, List.getLast?_reverse]
  intro h
  have := List.head?_dropWhile_not (· == '\n') s.reverse
  rw [h] at this
  simp at this

theorem trimBreaks_of_getLast?_ne {s : List Char} (h : s.getLast? ≠ some '\n') :
    trimBreaks s = s := by
  rw [trimBreaks]
  rcases hs : s.reverse with - | ⟨c, rest⟩
  · rw [List.reverse_eq_nil_iff.1 hs]
    rfl
  · have hc : c ≠ '\n' := by
      rintro rfl
      exact h (by rw [← List.reverse_reverse s, hs, List.getLast?_reverse]; rfl)
    rw [List.dropWhile_cons_of_neg (by simpa using hc), ← hs, List.reverse_reverse]

theorem trimBreaks_append_break (s : List Char) : trimBreaks (s ++ ['\n']) = trimBreaks s := by
  simp [trimBreaks]

/-! ### The blocks that may be cut -/

/-- The report with every block that may be cut left empty. -/
def emptied (r : Report) : Report :=
  { r with
    output := r.output.map fun _ ↦ ""
    diagnostics := r.diagnostics.map fun _ ↦ ""
    exception := r.exception.map fun _ ↦ "" }

/-- The number of characters of a block, without the breaks at its end. -/
def size (r : Report) (p : Part) : Nat :=
  ((r.part? p).map fun body ↦ (trimBreaks body.toList).length).getD 0

/-- The number of characters of several blocks. -/
def totalSize (r : Report) : List Part → Nat
  | [] => 0
  | p :: rest => r.size p + r.totalSize rest

@[simp]
theorem part?_setPart_self (r : Report) (text : String) (p : Part) :
    (r.setPart text p).part? p = some text := by
  cases p <;> rfl

theorem totalSize_congr {s : Report} {parts : List Part} (h : ∀ p ∈ parts, s.size p = r.size p) :
    s.totalSize parts = r.totalSize parts := by
  induction parts with
  | nil => rfl
  | cons p rest ih =>
    obtain ⟨hp, hrest⟩ := List.forall_mem_cons.1 h
    rw [totalSize, totalSize, hp, ih hrest]

theorem part?_setPart_of_ne (r : Report) (text : String) (h : q ≠ p) :
    (r.setPart text p).part? q = r.part? q := by
  cases p <;> cases q <;> first | rfl | exact absurd rfl h

theorem emptied_setPart {body : String} (text : String) (h : r.part? p = some body) :
    (r.setPart text p).emptied = r.emptied := by
  cases p <;> simp_all [part?, setPart, emptied]

/-- The blocks add their lengths to what the text has without them. -/
theorem length_plain (r : Report) :
    r.plain.length =
      r.emptied.plain.length + r.size .diagnostics + r.size .exception + r.size .output := by
  have hlength (r : Report) : r.plain.length + 1 = (r.plainLines.flatMap (· ++ ['\n'])).length := by
    rw [← intercalate_append_singleton '\n' (show r.plainLines ≠ [] from List.cons_ne_nil _ _)]
    simp [plain]
  have hfull := hlength r
  have hbare := hlength r.emptied
  suffices (r.plainLines.flatMap (· ++ ['\n'])).length =
      (r.emptied.plainLines.flatMap (· ++ ['\n'])).length + r.size .diagnostics +
        r.size .exception + r.size .output by
    omega
  rcases r with ⟨title, description, input, output, diagnostics, exception, footer, -, -, -, -⟩
  rcases output with - | output <;> rcases diagnostics with - | diagnostics <;>
    rcases exception with - | exception <;>
    simp [plainLines, blocks, emptied, size, part?, trimBreaks] <;> omega

/-! ### One cut -/

/-- A text that fits is left alone. -/
theorem shrink_of_le (h : r.plain.length ≤ limit) (p : Part) : r.shrink limit p = r := by
  simp [shrink, Nat.sub_eq_zero_of_le h]

theorem shrink_of_none (h : r.part? p = none) : r.shrink limit p = r := by
  simp [shrink, h]

theorem shrink_of_some {body : String} (hlt : limit < r.plain.length)
    (h : r.part? p = some body) :
    r.shrink limit p = r.setPart (String.ofList (Text.cut (trimBreaks body.toList)
      ((trimBreaks body.toList).length - (r.plain.length - limit)))) p := by
  have : r.plain.length - limit ≠ 0 := by omega
  simp [shrink, h, this]

/-- Only the block that is cut can change. -/
theorem part?_shrink_of_ne (limit : Nat) (r : Report) (h : q ≠ p) :
    (r.shrink limit p).part? q = r.part? q := by
  unfold shrink
  dsimp only
  split
  · rfl
  · exact part?_setPart_of_ne r _ h

/-- All but the blocks is as before. -/
theorem emptied_shrink (limit : Nat) (r : Report) (p : Part) :
    (r.shrink limit p).emptied = r.emptied := by
  rcases Nat.lt_or_ge limit r.plain.length with hlt | hle
  · rcases h : r.part? p with - | body
    · rw [shrink_of_none h]
    · rw [shrink_of_some hlt h, emptied_setPart _ h]
  · rw [shrink_of_le hle]

theorem size_shrink_of_ne (limit : Nat) (r : Report) (h : q ≠ p) :
    (r.shrink limit p).size q = r.size q := by
  rw [size, part?_shrink_of_ne limit r h, size]

/-- A block loses what the text has too much, or all of itself. -/
theorem size_shrink_self (hlt : limit < r.plain.length) (p : Part) :
    (r.shrink limit p).size p = r.size p - (r.plain.length - limit) := by
  rcases h : r.part? p with - | body
  · simp [shrink_of_none h, size, h]
  · have hkeep : (trimBreaks body.toList).length - (r.plain.length - limit) ≤
        (trimBreaks body.toList).length := Nat.sub_le ..
    have hsize : r.size p = (trimBreaks body.toList).length := by simp [size, h]
    rw [shrink_of_some hlt h, size, part?_setPart_self, Option.map_some, Option.getD_some,
      String.toList_ofList,
      trimBreaks_of_getLast?_ne (Text.getLast?_cut (getLast?_trimBreaks _)), hsize]
    rcases Nat.lt_or_eq_of_le hkeep with hless | hall
    · exact Text.length_cut_of_lt hless
    · rw [hall, Text.cut_of_le (Nat.le_refl _)]

/-- The text loses what the block has lost: it has the length it may have, or else the block is
empty now. -/
theorem length_plain_shrink (hlt : limit < r.plain.length) (p : Part) :
    (r.shrink limit p).plain.length = max limit (r.plain.length - r.size p) := by
  have hbefore := r.length_plain
  have hafter := (r.shrink limit p).length_plain
  have hself := size_shrink_self hlt p
  rw [emptied_shrink] at hafter
  cases p
  all_goals
    simp only [size_shrink_of_ne limit r, ne_eq, reduceCtorEq, not_false_eq_true] at hafter
    omega

/-- A text that is too long after a cut has an empty block where the cut was. -/
theorem part?_shrink_eq_empty {body : String} (h : limit < (r.shrink limit p).plain.length)
    (hbody : (r.shrink limit p).part? p = some body) : body = "" := by
  have hlt : limit < r.plain.length := by
    refine Nat.lt_of_not_le fun hle ↦ ?_
    rw [shrink_of_le hle] at h
    omega
  rw [length_plain_shrink hlt] at h
  rcases hp : r.part? p with - | before
  · rw [shrink_of_none hp, hp] at hbody
    nomatch hbody
  · have hsize : r.size p = (trimBreaks before.toList).length := by simp [size, hp]
    have hkeep : (trimBreaks before.toList).length - (r.plain.length - limit) = 0 := by omega
    rw [shrink_of_some hlt hp, part?_setPart_self, hkeep, Text.cut_zero] at hbody
    exact (Option.some.inj hbody).symm

/-! ### All cuts -/

/-- The cuts of different blocks, one after the other, seen from the end. -/
structure Cuts (limit : Nat) (parts : List Part) (r s : Report) : Prop where
  /-- All but the blocks is as before. -/
  emptied : s.emptied = r.emptied
  /-- So are the blocks that are not visited. -/
  others : ∀ p ∉ parts, s.part? p = r.part? p
  /-- A text that fits is left alone. -/
  fits : r.plain.length ≤ limit → s = r
  /-- A text that does not fit gets the length it may have, if the blocks are long enough. -/
  length : limit < r.plain.length →
    s.plain.length = max limit (r.plain.length - r.totalSize parts)
  /-- A block is cut only if the blocks before it are all used up. -/
  order : parts.Pairwise fun p q ↦ s.part? q ≠ r.part? q → ∀ body ∈ s.part? p, body = ""

theorem cuts_foldl (limit : Nat) (parts : List Part) (hnodup : parts.Nodup) (r : Report) :
    Cuts limit parts r (parts.foldl (shrink limit) r) := by
  induction parts generalizing r with
  | nil => exact ⟨rfl, fun _ _ ↦ rfl, fun _ ↦ rfl, fun h ↦ by simp [totalSize]; omega, .nil⟩
  | cons p rest ih =>
    obtain ⟨hp, hrest⟩ := List.nodup_cons.1 hnodup
    have hne {q : Part} (hq : q ∈ rest) : q ≠ p := fun heq ↦ hp (heq ▸ hq)
    have tail := ih hrest (r.shrink limit p)
    have hsizes : (r.shrink limit p).totalSize rest = r.totalSize rest :=
      totalSize_congr fun q hq ↦ size_shrink_of_ne limit r (hne hq)
    rw [List.foldl_cons]
    refine ⟨tail.emptied.trans (emptied_shrink limit r p), fun q hq ↦ ?_, fun h ↦ ?_, fun h ↦ ?_,
      List.pairwise_cons.2 ⟨fun q hq hchanged body hbody ↦ ?_, ?_⟩⟩
    · rw [List.mem_cons, not_or] at hq
      rw [tail.others q hq.2, part?_shrink_of_ne limit r hq.1]
    · rw [shrink_of_le h p] at tail ⊢
      exact tail.fits h
    · have hlength := length_plain_shrink h p
      rw [totalSize]
      rcases Nat.lt_or_ge limit (r.shrink limit p).plain.length with hlt | hle
      · rw [tail.length hlt, hsizes]
        omega
      · rw [tail.fits hle]
        omega
    · rw [tail.others p hp] at hbody
      refine part?_shrink_eq_empty (Nat.lt_of_not_le fun hle ↦ hchanged ?_) hbody
      rw [tail.fits hle, part?_shrink_of_ne limit r (hne hq)]
    · refine tail.order.imp_of_mem fun {q t} _ ht himp hchanged ↦ himp ?_
      rwa [part?_shrink_of_ne limit r (hne ht)]

section All

variable {s : Report} (h : Cuts limit [.diagnostics, .exception, .output] r s)

include h

/-- All blocks together are long enough, unless everything else is too long without them. -/
theorem Cuts.length_eq (hlt : limit < r.plain.length) :
    s.plain.length = max limit r.emptied.plain.length := by
  have hsum := r.length_plain
  rw [h.length hlt]
  simp only [totalSize]
  omega

theorem Cuts.fits_iff : s.plain.length ≤ limit ↔ r.emptied.plain.length ≤ limit := by
  rcases Nat.lt_or_ge limit r.plain.length with hlt | hle
  · rw [h.length_eq hlt]
    omega
  · have hsum := r.length_plain
    rw [h.fits hle]
    omega

end All

/-! ### What is left -/

/-- What a text shows of a report besides the blocks that may be cut. -/
structure Shows (r : Report) (text : List Char) : Prop where
  /-- The title, the description and the whole input come first. -/
  opening : ['\n'].intercalate
    ([heading r.title] ++ (if r.description.isEmpty then [] else [r.description.toList]) ++
      [heading "Input", trimBreaks r.input.toList]) <+: text
  headings : ∀ name ∈ r.blocks.map Prod.fst, heading name <:+: text
  /-- The footer comes last. -/
  footer : ∀ footer ∈ r.footer, footer.toList <:+ text

/-- The whole text shows everything. -/
theorem shows_plain (r : Report) : r.Shows r.plain where
  opening := by
    obtain ⟨rest, hlines⟩ : ∃ rest, r.plainLines = ([heading r.title] ++
        (if r.description.isEmpty then [] else [r.description.toList]) ++
        [heading "Input", trimBreaks r.input.toList]) ++ rest := by
      simp [plainLines, blocks]
    rw [plain, hlines]
    exact prefix_intercalate ..
  headings name hname := by
    obtain ⟨block, hblock, rfl⟩ := List.mem_map.1 hname
    refine infix_intercalate _ (List.mem_cons_of_mem _ ?_)
    refine List.mem_append_left _ (List.mem_append_right _ ?_)
    exact List.mem_flatMap.2 ⟨block, hblock, List.mem_cons_self⟩
  footer footer hfooter := by
    obtain ⟨first, hlines⟩ : ∃ first, r.plainLines = first ++ [footer.toList] := by
      rw [plainLines, Option.mem_def.1 hfooter]
      exact ⟨_ :: _, rfl⟩
    rw [plain, hlines]
    simpa using suffix_intercalate ['\n'] first [footer.toList]

/-- The headings of a report do not depend on what stands under them. -/
theorem map_fst_blocks_emptied (r : Report) :
    r.emptied.blocks.map Prod.fst = r.blocks.map Prod.fst := by
  rcases r with ⟨-, -, -, output, diagnostics, exception, -, -, -, -, -⟩
  cases output <;> cases diagnostics <;> cases exception <;> rfl

theorem Shows.of_emptied {s : Report} {text : List Char} (h : s.Shows text)
    (heq : s.emptied = r.emptied) : r.Shows text := by
  have htitle : s.title = r.title := (congrArg Report.title heq :)
  have hdescription : s.description = r.description := (congrArg Report.description heq :)
  have hinput : s.input = r.input := (congrArg Report.input heq :)
  have hfooter : s.footer = r.footer := (congrArg Report.footer heq :)
  have hblocks : s.blocks.map Prod.fst = r.blocks.map Prod.fst := by
    rw [← map_fst_blocks_emptied s, heq, map_fst_blocks_emptied r]
  obtain ⟨hopening, hheadings, hend⟩ := h
  rw [htitle, hdescription, hinput] at hopening
  rw [hblocks] at hheadings
  rw [hfooter] at hend
  exact ⟨hopening, hheadings, hend⟩

/-- **What is left of a shortened report.** No text is longer than it may be, and the whole is cut
only where it is too long without any of the three blocks. A text that fits is untouched. All
others have exactly the length they may have: they show the title, the description, the whole
input, every heading and the footer, and the output has lost something only where nothing of the
messages and of the exception is left. -/
theorem plainBounded_exact (limit : Nat) (r : Report) :
    (r.plainBounded limit).1.length ≤ limit ∧
    ((r.plainBounded limit).2 = true ↔ limit < r.emptied.plain.length) ∧
    (r.plain.length ≤ limit → (r.plainBounded limit).1 = r.plain) ∧
    (limit < r.plain.length → (r.plainBounded limit).2 = false →
      (r.plainBounded limit).1.length = limit ∧ r.Shows (r.plainBounded limit).1 ∧
      ∃ s : Report, (r.plainBounded limit).1 = s.plain ∧ s.emptied = r.emptied ∧
        (s.output ≠ r.output →
          (∀ body ∈ s.diagnostics, body = "") ∧ ∀ body ∈ s.exception, body = "")) := by
  have hcuts := cuts_foldl limit [.diagnostics, .exception, .output] (by decide) r
  generalize hs : [Part.diagnostics, .exception, .output].foldl (shrink limit) r = s at hcuts
  have hbounded : r.plainBounded limit =
      if s.plain.length ≤ limit then (s.plain, false) else (Text.cutPlain s.plain limit, true) := by
    rw [plainBounded, hs]
  refine ⟨length_plainBounded_le limit r, ?_, fun hle ↦ ?_, fun hlt hnocut ↦ ?_⟩
  · rw [hbounded, ← Nat.not_le, ← hcuts.fits_iff]
    by_cases h : s.plain.length ≤ limit <;> simp [h]
  · rw [hbounded, hcuts.fits hle, if_pos hle]
  · have hle : s.plain.length ≤ limit := by
      refine Nat.le_of_not_lt fun h ↦ ?_
      rw [hbounded, if_neg (Nat.not_le.2 h)] at hnocut
      nomatch hnocut
    have htext : (r.plainBounded limit).1 = s.plain := by rw [hbounded, if_pos hle]
    obtain ⟨hdiagnostics, horder⟩ := List.pairwise_cons.1 hcuts.order
    obtain ⟨hexception, -⟩ := List.pairwise_cons.1 horder
    rw [htext]
    refine ⟨?_, s.shows_plain.of_emptied hcuts.emptied, s, rfl, hcuts.emptied, fun hchanged ↦ ?_⟩
    · have := hcuts.length_eq hlt
      have := hcuts.fits_iff.1 hle
      omega
    · exact ⟨hdiagnostics .output (by decide) hchanged, hexception .output (by decide) hchanged⟩

/-- A script with an answer before its exception. -/
def halfDone : Report where
  title := "Scripting Result"
  description := "failed"
  input := "boom()"
  output := some "1, 2, 3"
  diagnostics := none
  exception := some "ScriptError\n"
  footer := some "2ms"
  footerIcon := none
  color := none
  timestamp := default
  rich := true

/-- The exception is used up, and then the answer before it loses its end. -/
theorem plainBounded_exact_halfDone :
    81 < halfDone.plain.length ∧ (halfDone.plainBounded 81).2 = false ∧
      (halfDone.plainBounded 81).1.length = 81 ∧ halfDone.Shows (halfDone.plainBounded 81).1 := by
  have hlong : 81 < halfDone.plain.length := by decide
  have hwhole : (halfDone.plainBounded 81).2 = false := by decide +kernel
  obtain ⟨hlength, hshows, -⟩ := (plainBounded_exact 81 halfDone).2.2.2 hlong hwhole
  exact ⟨hlong, hwhole, hlength, hshows⟩

end Report
end Snippet
