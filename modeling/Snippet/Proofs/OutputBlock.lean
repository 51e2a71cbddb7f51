import Snippet.Proofs.PlainText

/-!
# The output in a plain text

The report on a success has one block that may be cut, its output. So its plain text has three
parts: what stands before the output, the output, and the footer behind it. The first and the last
do not depend on the output, and what they leave of the limit is the room of the output
(`outputRoom`). This may be any small number, as it is up to the script and the settings.

* `plainBounded_of_showsOutput`: the output is cut to its room, and the whole text only where the
  other two parts do not fit without it.
* `toList_of_deliver`: so it is in every message that is sent and was not cut as a whole.
-/

namespace Snippet

namespace Text

theorem length_cut_le (s : List Char) (limit : Nat) : (cut s limit).length ≤ limit := by
  rcases Nat.lt_or_ge limit s.length with h | h
  · exact Nat.le_of_eq (length_cut_of_lt h)
  · rwa [cut_of_le h]

end Text

namespace Report

variable {limit : Nat} {r : Report} {output : String}

/-- A report with an output and nothing else that may be cut. -/
structure ShowsOutput (r : Report) (output : String) : Prop where
  output : r.output = some output
  diagnostics : r.diagnostics = none
  exception : r.exception = none

/-- The plain text in front of the output. -/
def beforeOutput (r : Report) : List Char :=
  ['\n'].intercalate ([heading r.title] ++
    (if r.description.isEmpty then [] else [r.description.toList]) ++
    [heading "Input", trimBreaks r.input.toList, heading "Output", []])

/-- The plain text behind the output. -/
def afterOutput (r : Report) : List Char :=
  match r.footer with
  | some footer => '\n' :: footer.toList
  | none => []

/-- The characters that the rest of the plain text leaves to the output. -/
def outputRoom (limit : Nat) (r : Report) : Nat :=
  limit - (r.beforeOutput.length + r.afterOutput.length)

theorem ShowsOutput.setPart (h : r.ShowsOutput output) (text : String) :
    (r.setPart text .output).ShowsOutput text :=
  ⟨rfl, h.diagnostics, h.exception⟩

theorem plain_of_showsOutput (h : r.ShowsOutput output) :
    r.plain = r.beforeOutput ++ trimBreaks output.toList ++ r.afterOutput := by
  have hfront : [heading r.title] ++
      (if r.description.isEmpty then [] else [r.description.toList]) ++
      [heading "Input", trimBreaks r.input.toList, heading "Output"] ≠ [] := by simp
  have hlines : r.plainLines = ([heading r.title] ++
      (if r.description.isEmpty then [] else [r.description.toList]) ++
      [heading "Input", trimBreaks r.input.toList, heading "Output"]) ++
      trimBreaks output.toList :: (r.footer.map String.toList).toList := by
    simp [plainLines, blocks, h.output, h.diagnostics, h.exception]
  have hbefore : r.beforeOutput = ['\n'].intercalate ([heading r.title] ++
      (if r.description.isEmpty then [] else [r.description.toList]) ++
      [heading "Input", trimBreaks r.input.toList, heading "Output"]) ++ ['\n'] := by
    have := intercalate_append ['\n'] hfront (List.cons_ne_nil [] [])
    simpa [beforeOutput] using this
  rw [plain, hlines, intercalate_append ['\n'] hfront (List.cons_ne_nil _ _), hbefore,
    afterOutput]
  cases r.footer <;> simp

/-- The output is cut to its room, and what is left of it stands where it stood. -/
theorem plain_shrink_of_showsOutput (h : r.ShowsOutput output) (limit : Nat) :
    (r.shrink limit .output).plain =
      r.beforeOutput ++ Text.cut (trimBreaks output.toList) (r.outputRoom limit) ++
        r.afterOutput := by
  have hplain := plain_of_showsOutput h
  have hlength := congrArg List.length hplain
  simp only [List.length_append] at hlength
  rcases Nat.lt_or_ge limit r.plain.length with hlt | hle
  · have hroom : (trimBreaks output.toList).length - (r.plain.length - limit) =
        r.outputRoom limit := by
      rw [outputRoom]
      omega
    rw [shrink_of_some hlt (show r.part? .output = some output from h.output), hroom]
    rw [plain_of_showsOutput (h.setPart _), String.toList_ofList,
      trimBreaks_of_getLast?_ne (Text.getLast?_cut (getLast?_trimBreaks _))]
    rfl
  · have hroom : (trimBreaks output.toList).length ≤ r.outputRoom limit := by
      rw [outputRoom]
      omega
    rw [shrink_of_le hle, Text.cut_of_le hroom, hplain]

/-- **The plain text of a success.** It is cut as a whole only where the rest of it is too long
without any output. Otherwise the output is cut to its room. -/
theorem plainBounded_of_showsOutput (h : r.ShowsOutput output) (limit : Nat) :
    r.plainBounded limit =
      if r.beforeOutput.length + r.afterOutput.length ≤ limit then
        (r.beforeOutput ++ Text.cut (trimBreaks output.toList) (r.outputRoom limit) ++
          r.afterOutput, false)
      else (Text.cutPlain (r.beforeOutput ++ r.afterOutput) limit, true) := by
  have hfold : [Part.diagnostics, .exception, .output].foldl (shrink limit) r =
      r.shrink limit .output := by
    rw [List.foldl_cons, shrink_of_none (show r.part? .diagnostics = none from h.diagnostics),
      List.foldl_cons, shrink_of_none (show r.part? .exception = none from h.exception)]
    rfl
  have hcut := Text.length_cut_le (trimBreaks output.toList) (r.outputRoom limit)
  rw [plainBounded, hfold, plain_shrink_of_showsOutput h]
  by_cases hroom : r.beforeOutput.length + r.afterOutput.length ≤ limit
  · rw [if_pos hroom]
    refine if_pos ?_
    rw [outputRoom] at hcut
    simp only [List.length_append, outputRoom]
    omega
  · have hzero : r.outputRoom limit = 0 := by
      rw [outputRoom]
      omega
    rw [if_neg hroom, hzero, Text.cut_zero, List.append_nil]
    refine if_neg ?_
    rw [List.length_append]
    exact hroom

theorem deliver_of_not_embeddable {limits : SizeLimits} (h : r.isEmbeddable limits.field = false) :
    r.deliver limits =
      ⟨.ofText (String.ofList (r.plainBounded limits.message).1),
        (r.plainBounded limits.message).2⟩ := by
  rw [deliver, h]
  rfl

/-- A text that is sent and was not cut as a whole has the output in it, cut to its room. -/
theorem toList_of_deliver {limits : SizeLimits} {message : String} (h : r.ShowsOutput output)
    (hdeliver : r.deliver limits = ⟨.ofText message, false⟩) :
    message.toList =
      r.beforeOutput ++ Text.cut (trimBreaks output.toList) (r.outputRoom limits.message) ++
        r.afterOutput := by
  rcases hembed : r.isEmbeddable limits.field with - | -
  · rw [deliver_of_not_embeddable hembed, plainBounded_of_showsOutput h] at hdeliver
    split at hdeliver
    · injection hdeliver with hmessage
      injection hmessage with hcontent
      rw [← Option.some.inj hcontent, String.toList_ofList]
    · injection hdeliver with _ hcut
      cases hcut
  · rw [deliver, if_pos hembed] at hdeliver
    injection hdeliver with hmessage
    injection hmessage with hcontent
    cases hcontent

end Report

namespace Outcome

variable {settings : Settings} {context : Context} {source : String} {form : Classified}
  {value : Option Value} {compileTime execTime : Time} {r : Report}

/-- The report on a success shows the output block of the value. -/
theorem showsOutput_of_report
    (h : (Outcome.success value compileTime execTime).report settings context source form = .ok r) :
    r.ShowsOutput (outputBlock settings form).1 ∧ r.rich = (outputBlock settings form).2 := by
  unfold report at h
  cases hicon : context.avatar with
  | error text =>
    rw [hicon] at h
    cases h
  | ok icon =>
    cases hcolor : context.accent with
    | error text =>
      rw [hicon, hcolor] at h
      cases h
    | ok color =>
      rw [hicon, hcolor] at h
      cases h
      exact ⟨⟨rfl, rfl, rfl⟩, rfl⟩

end Outcome

end Snippet
