import Snippet.Proofs.OutputBlock

/-!
# Fences in a cut output

A cut looks at the end of a text. If that is a fence, the text is taken for a block of code, and
its end is put behind the mark again, so that the block stays closed. Both halves of this can fail.

* The fence is kept as soon as there is room for the mark and one more character. In a room of four
  to six characters a block of code loses one of its two fences (`balanced_cut_iff`), and what
  stands behind it is shown as code.
* Listings put their texts between double backticks. One whose last text is empty, or ends in a
  backtick, ends in three of them. It is taken for a block of code, and in a room of more than four
  characters a fence is added that nothing has opened (`cleanlyCut_cut_iff`).

The two main results say this of the messages that are sent: `block_balanced_iff` of the scalars
that are shown as blocks of code, and `listing_cut_iff` of listings.
-/

namespace Snippet

namespace Text

variable {s t body : List Char} {limit : Nat}

/-! ### Blocks of code -/

/-- The number of fences in a text, found from left to right. -/
def fenceCount : List Char → Nat
  | '`' :: '`' :: '`' :: rest => fenceCount rest + 1
  | _ :: rest => fenceCount rest
  | [] => 0

/-- A text in which every block of code is closed: it has no fence, or is itself a block of code
with one fence at its beginning and one at its end. -/
def Balanced (s : List Char) : Prop :=
  fenceCount s = 0 ∨ fenceCount s = 2 ∧ fence <+: s ∧ fence <:+ s

instance (s : List Char) : Decidable (Balanced s) :=
  inferInstanceAs (Decidable (_ ∨ _))

@[simp]
theorem fenceCount_fence_append (s : List Char) : fenceCount (fence ++ s) = fenceCount s + 1 :=
  rfl

theorem fenceCount_append (h : '`' ∉ s) (t : List Char) : fenceCount (s ++ t) = fenceCount t := by
  induction s with
  | nil => rfl
  | cons c s ih =>
    obtain ⟨hc, hs⟩ := not_or.1 (mt List.mem_cons.2 h)
    rw [List.cons_append, fenceCount.eq_2, ih hs]
    rintro _ rfl
    exact absurd rfl hc

/-- A block of code with no fence inside it is balanced. -/
theorem balanced_block (h : '`' ∉ body) : Balanced (fence ++ body ++ fence) := by
  refine .inr ⟨?_, ⟨body ++ fence, by simp⟩, ⟨fence ++ body, rfl⟩⟩
  rw [List.append_assoc, fenceCount_fence_append, fenceCount_append h]
  rfl

/-- What a text becomes that ends in a fence and is cut. -/
theorem cut_of_suffix (hlt : limit < s.length) (h : fence <:+ s) :
    cut s limit =
      if 4 < limit then s.take (limit - 4) ++ ellipsis :: fence
      else if limit = 0 then [] else s.take (limit - 1) ++ [ellipsis] := by
  have hsuffix : fence.isSuffixOf s = true := List.isSuffixOf_iff_suffix.2 h
  simp only [cut, cutPlain, Nat.not_le.2 hlt, hsuffix, true_and, if_false]
  rfl

/-- What is left of a block of code in a room of less than two fences and a mark. Nothing of what
is inside the block is shown. -/
def remnant (limit : Nat) : List Char :=
  if 4 < limit then fence.take (limit - 4) ++ ellipsis :: fence
  else if limit = 0 then [] else fence.take (limit - 1) ++ [ellipsis]

theorem cut_block_of_lt (hbody : body ≠ []) (h : limit < 7) :
    cut (fence ++ body ++ fence) limit = remnant limit := by
  have hlength : 0 < body.length := List.length_pos_iff.2 hbody
  have hfence : fence.length = 3 := rfl
  rw [cut_of_suffix (by simp only [List.length_append, hfence]; omega) (List.suffix_append ..),
    remnant, List.append_assoc, List.take_append_of_le_length (by rw [hfence]; omega)]
  split
  · rfl
  · rw [List.take_append_of_le_length (by rw [hfence]; omega)]

/-- With more room, both fences are kept and the mark stands between them. -/
theorem balanced_cut_of_le (hbody : '`' ∉ body) (h : 7 ≤ limit)
    (hlt : limit < (fence ++ body ++ fence).length) :
    Balanced (cut (fence ++ body ++ fence) limit) := by
  have hfence : fence.length = 3 := rfl
  have hlength : limit - 7 ≤ body.length := by
    simp only [List.length_append, hfence] at hlt
    omega
  have hroom : limit - 4 = fence.length + (limit - 7) := by omega
  have hcut : cut (fence ++ body ++ fence) limit =
      fence ++ (body.take (limit - 7) ++ [ellipsis]) ++ fence := by
    rw [cut_of_suffix hlt (List.suffix_append ..), if_pos (by omega), hroom, List.append_assoc,
      List.take_length_add_append, List.take_append_of_le_length hlength]
    simp
  rw [hcut]
  refine balanced_block fun hmem ↦ ?_
  obtain hmem | hmem := List.mem_append.1 hmem
  · exact hbody (List.mem_of_mem_take hmem)
  · exact absurd (List.mem_singleton.1 hmem) (by decide)

/-- A block of code loses one of its fences in exactly three rooms. -/
theorem balanced_cut_iff (hbody : '`' ∉ body) (hne : body ≠ []) (limit : Nat) :
    Balanced (cut (fence ++ body ++ fence) limit) ↔ limit < 4 ∨ 6 < limit := by
  rcases Nat.lt_or_ge limit 7 with hsmall | hlarge
  · have hremnant : ∀ n < 7, (Balanced (remnant n) ↔ n < 4 ∨ 6 < n) := by decide
    rw [cut_block_of_lt hne hsmall]
    exact hremnant limit hsmall
  · refine iff_of_true ?_ (.inr hlarge)
    rcases Nat.lt_or_ge limit (fence ++ body ++ fence).length with hlt | hle
    · exact balanced_cut_of_le hbody hlarge hlt
    · rw [cut_of_le hle]
      exact balanced_block hbody

/-! ### Listings -/

/-- What a clean cut makes of a text: nothing, or the beginning of the text and the mark. -/
def CleanlyCut (s t : List Char) : Prop :=
  t = [] ∨ ∃ kept, kept <+: s ∧ kept ≠ s ∧ t = kept ++ [ellipsis]

/-- A text loses its end cleanly unless a fence is put behind the mark. -/
theorem cleanlyCut_cut_iff (h : limit < s.length) :
    CleanlyCut s (cut s limit) ↔ ¬ (fence <:+ s ∧ 4 < limit) := by
  by_cases hfence : fence <:+ s ∧ 4 < limit
  · refine iff_of_false ?_ (not_not_intro hfence)
    rw [cut_of_suffix h hfence.1, if_pos hfence.2]
    rintro (hnil | ⟨kept, -, -, hkept⟩)
    · simp at hnil
    · have hlast := congrArg List.getLast? hkept
      simp [fence, ellipsis] at hlast
  · refine iff_of_true ?_ hfence
    have hplain : cut s limit = cutPlain s limit := by
      rw [cut, if_neg (Nat.not_le.2 h), if_neg]
      rintro ⟨hsuffix, hlt⟩
      exact hfence ⟨List.isSuffixOf_iff_suffix.1 hsuffix, hlt⟩
    rw [hplain, cutPlain, if_neg (Nat.not_le.2 h)]
    split
    · exact .inl rfl
    · refine .inr ⟨s.take (limit - 1), List.take_prefix _ s, fun heq ↦ ?_, rfl⟩
      have hlength := congrArg List.length heq
      rw [List.length_take] at hlength
      omega

/-- A text between double backticks ends in a fence if it is empty or ends in a backtick itself. -/
theorem fence_suffix_iff (front t : List Char) :
    fence <:+ front ++ ['`', '`'] ++ t ++ ['`', '`'] ↔ t = [] ∨ t.getLast? = some '`' := by
  have hfence : fence = ['`'] ++ ['`', '`'] := rfl
  rw [hfence, List.suffix_append_self_iff, List.singleton_suffix_iff_getLast?_eq_some]
  rcases List.eq_nil_or_concat t with rfl | ⟨t, c, rfl⟩
  · simp
  · simp [← List.append_assoc]

end Text

/-! ### What is listed -/

/-- The last text of a listing that stands between double backticks: the name of the type if there
is no other. -/
def Classified.lastQuoted? : Classified → Option String
  | .mapping typeName entries => some ((entries.getLast?.map Prod.snd).getD typeName)
  | .sequence typeName items => some (items.getLast?.getD typeName)
  | .object _ text => some text
  | _ => Option.none

/-- A listing ends in its last text, two backticks and the end of the line. -/
theorem Classified.exists_display {form : Classified} {last : String}
    (h : form.lastQuoted? = some last) :
    ∃ display front, form.displayText? = some display ∧
      display.toList = front ++ ['`', '`'] ++ last.toList ++ ['`', '`'] ++ ['\n'] := by
  cases form with
  | mapping typeName entries =>
    rcases List.eq_nil_or_concat entries with rfl | ⟨init, ⟨key, value⟩, rfl⟩
    · obtain rfl := Option.some.inj h
      exact ⟨_, "Dictionary of type ".toList, rfl, by simp⟩
    · obtain rfl : value = last := by simpa [lastQuoted?] using h
      refine ⟨_, ("Dictionary of type ``" ++ typeName ++ "``\n" ++
        String.join (init.map keyedBullet) ++ "- ``" ++ key ++ "``: ").toList, rfl, ?_⟩
      simp [keyedBullet]
  | sequence typeName items =>
    rcases List.eq_nil_or_concat items with rfl | ⟨init, item, rfl⟩
    · obtain rfl := Option.some.inj h
      exact ⟨_, "Enumerable of type ".toList, rfl, by simp⟩
    · obtain rfl : item = last := by simpa [lastQuoted?] using h
      refine ⟨_, ("Enumerable of type ``" ++ typeName ++ "``\n" ++
        String.join (init.map bullet) ++ "- ").toList, rfl, ?_⟩
      simp [bullet]
  | object typeName text =>
    obtain rfl := Option.some.inj h
    refine ⟨_, ("Object of type ``" ++ typeName ++ "``\n- ").toList, rfl, ?_⟩
    simp [bullet]
  | _ => cases h

/-- A listing ends in one break, and without it in a fence if its last text is empty or ends in a
backtick. -/
theorem Classified.trimBreaks_display {form : Classified} {last display : String}
    (hlast : form.lastQuoted? = some last) (hdisplay : form.displayText? = some display) :
    display.toList = Report.trimBreaks display.toList ++ ['\n'] ∧
      (Text.fence <:+ Report.trimBreaks display.toList ↔
        last = "" ∨ last.toList.getLast? = some '`') := by
  obtain ⟨display', front, hdisplay', heq⟩ := exists_display hlast
  obtain rfl := Option.some.inj (hdisplay'.symm.trans hdisplay)
  have hend : (front ++ ['`', '`'] ++ last.toList ++ ['`', '`']).getLast? ≠ some '\n' := by
    rw [List.getLast?_append]
    exact nofun
  have htrimmed : Report.trimBreaks display'.toList =
      front ++ ['`', '`'] ++ last.toList ++ ['`', '`'] := by
    rw [heq, Report.trimBreaks_append_break, Report.trimBreaks_of_getLast?_ne hend]
  rw [htrimmed, Text.fence_suffix_iff, String.toList_eq_nil_iff]
  exact ⟨heq, Iff.rfl⟩

namespace Outcome

open Classified Report Text

/-! ### What is sent -/

variable {settings : Settings} {text : String}

theorem toList_fenced (settings : Settings) (text : String) :
    (fenced settings text).toList =
      fence ++ (settings.codeLanguage.toList ++ '\n' :: text.toList) ++ fence := by
  simp [fenced, fence]

/-- A text without backticks is no block of code. -/
theorem isFenced_eq_false (h : '`' ∉ text.toList) : isFenced text = false := by
  rw [isFenced, Bool.and_eq_false_iff]
  refine .inl (Bool.eq_false_iff.2 fun hprefix ↦ h ?_)
  exact (List.isPrefixOf_iff_prefix.1 hprefix).subset (List.mem_cons_self ..)

/-- A block of code that is cut to a room is balanced in all but three of them. -/
theorem balanced_cut_fenced_iff (hlanguage : '`' ∉ settings.codeLanguage.toList)
    (htext : '`' ∉ text.toList) (limit : Nat) :
    Balanced (cut (fenced settings text).toList limit) ↔ limit < 4 ∨ 6 < limit := by
  rw [toList_fenced]
  refine balanced_cut_iff ?_ (by simp) limit
  simp [hlanguage, htext]

theorem trimBreaks_fenced (settings : Settings) (text : String) :
    trimBreaks (fenced settings text).toList = (fenced settings text).toList := by
  refine trimBreaks_of_getLast?_ne ?_
  rw [toList_fenced, List.getLast?_append]
  exact nofun

/-- A listing is the whole output block, and no document can hold it. -/
theorem outputBlock_of_lastQuoted {form : Classified} {last display : String}
    (hlast : form.lastQuoted? = some last) (hdisplay : form.displayText? = some display) :
    outputBlock settings form = (display, false) := by
  cases form with
  | scalar _ => cases hlast
  | _ => simp only [outputBlock, hdisplay]

/-- **Blocks of code that are cut.** A scalar without backticks is shown as a block of code. Cut to
a number of characters, the block has no fence or both of them, except with four, five or six
characters, where it has one. So it is in the messages that are sent, where the block is cut to its
room. -/
theorem block_balanced_iff {settings : Settings} {text : String}
    (hlanguage : '`' ∉ settings.codeLanguage.toList) (htext : '`' ∉ text.toList) :
    (∀ limit, Balanced (shorten (fenced settings text) limit).toList ↔ limit < 4 ∨ 6 < limit) ∧
    ∀ {context : Context} {source message : String} {value : Option Value}
      {compileTime execTime : Time} {r : Report},
      (Outcome.success value compileTime execTime).classified settings = .scalar text →
      (Outcome.success value compileTime execTime).report settings context source (.scalar text) =
        .ok r →
      r.deliver settings.sizeLimits = ⟨.ofText message, false⟩ →
        ∃ body, message.toList = r.beforeOutput ++ body ++ r.afterOutput ∧
          (Balanced body ↔ r.outputRoom settings.messageLimit < 4 ∨
            6 < r.outputRoom settings.messageLimit) := by
  refine ⟨fun limit ↦ ?_, fun _ hreport hdeliver ↦ ?_⟩
  · rw [shorten, String.toList_ofList]
    exact balanced_cut_fenced_iff hlanguage htext limit
  · have hshows := (showsOutput_of_report hreport).1
    rw [outputBlock, isFenced_eq_false htext] at hshows
    refine ⟨_, toList_of_deliver hshows hdeliver, ?_⟩
    show Balanced (cut (trimBreaks (fenced _ _).toList) _) ↔ _
    rw [trimBreaks_fenced]
    exact balanced_cut_fenced_iff hlanguage htext _

/-- Settings with little room for an output. -/
def tight (messageLimit : Nat) : Settings :=
  { Settings.standard with fieldLimit := 16, messageLimit }

/-- The report on the script `x`, with an output and the time that compiling took. -/
def briefReport (typeName output : String) (rich : Bool) : Report where
  title := "Scripting Result"
  description := "Type: `" ++ typeName ++ "`"
  input := "```cs\nx```"
  output := some output
  diagnostics := none
  exception := none
  footer := some "Compilation time: 1ms"
  footerIcon := some "https://cdn/abyss.png"
  color := none
  timestamp := default
  rich := rich

/-- The plain text of such a report, up to the output. -/
def briefOpening (typeName : String) : String :=
  "**Scripting Result**\nType: `" ++ typeName ++ "`\n**Input**\n```cs\nx```\n**Output**\n"

/-- The report on a text of ten letters. -/
def lettersReport : Report :=
  briefReport "string" "```cs\nabcdefghij```" true

/-- Eleven characters are room for both fences and some of what is between them. -/
theorem block_balanced_iff_elevenLeft :
    Balanced (shorten (fenced Settings.standard "abcdefghij") 11).toList ∧
    ∃ body, lettersReport.deliver (tight 101).sizeLimits = ⟨.ofText
        (briefOpening "string" ++ "```cs\na…```" ++ "\nCompilation time: 1ms"), false⟩ ∧
      (briefOpening "string" ++ "```cs\na…```" ++ "\nCompilation time: 1ms").toList =
        lettersReport.beforeOutput ++ body ++ lettersReport.afterOutput ∧
      Balanced body := by
  have hlanguage : '`' ∉ (tight 101).codeLanguage.toList := by decide
  have htext : '`' ∉ "abcdefghij".toList := by decide
  have hreport : (Outcome.success (some (.string "abcdefghij")) (some 1) none).report (tight 101)
      plainHost "x" (.scalar "abcdefghij") = .ok lettersReport := rfl
  have hdeliver : lettersReport.deliver (tight 101).sizeLimits = ⟨.ofText
      (briefOpening "string" ++ "```cs\na…```" ++ "\nCompilation time: 1ms"), false⟩ := by
    decide +kernel
  have hroom : 6 < lettersReport.outputRoom (tight 101).messageLimit := by decide +kernel
  obtain ⟨hblocks, hmessages⟩ := block_balanced_iff hlanguage htext
  obtain ⟨body, hmessage, hbalanced⟩ := hmessages rfl hreport hdeliver
  refine ⟨(hblocks 11).2 (.inr (by decide)), body, hdeliver, ?_, ?_⟩
  · exact hmessage
  · exact hbalanced.2 (.inr hroom)

/-- Four characters are room for the opening fence and the mark, so that the footer behind them is
shown as code; five and six leave the closing fence alone. -/
theorem block_balanced_fourLeft :
    lettersReport.deliver (tight 94).sizeLimits = ⟨.ofText
      (briefOpening "string" ++ "```…" ++ "\nCompilation time: 1ms"), false⟩ ∧
    ∀ limit ∈ [4, 5, 6],
      ¬ Balanced (shorten (fenced Settings.standard "abcdefghij") limit).toList := by
  decide +kernel

/-- **Listings that are cut.** A list, a map or an object is shown as a listing. In a message that
was not cut as a whole, the listing is whole, or is cut cleanly, unless its last text is empty or
ends in a backtick and the listing has a room of more than four characters. In that case a fence is
added. -/
theorem listing_cut_iff {settings : Settings} {context : Context} {source message : String}
    {v : Value} {compileTime execTime : Time} {r : Report} (hv : v.isCollection = true)
    (hreport : (Outcome.success (some v) compileTime execTime).report settings context source
      (.ofValue settings.messageLimit v) = .ok r)
    (hdeliver : r.deliver settings.sizeLimits = ⟨.ofText message, false⟩) :
    ∃ display last body, (Classified.ofValue settings.messageLimit v).displayText? = some display ∧
      (Classified.ofValue settings.messageLimit v).lastQuoted? = some last ∧
      message.toList = r.beforeOutput ++ body ++ r.afterOutput ∧
      (body ≠ trimBreaks display.toList →
        (CleanlyCut (trimBreaks display.toList) body ↔
          ¬ ((last = "" ∨ last.toList.getLast? = some '`') ∧
            4 < r.outputRoom settings.messageLimit))) := by
  have hquoted : ∃ last, (Classified.ofValue settings.messageLimit v).lastQuoted? = some last := by
    cases v with
    | list _ | map _ | object _ _ _ => exact ⟨_, rfl⟩
    | _ => cases hv
  obtain ⟨last, hlast⟩ := hquoted
  obtain ⟨display, front, hdisplay, -⟩ := exists_display hlast
  have hshows := (showsOutput_of_report hreport).1
  rw [outputBlock_of_lastQuoted hlast hdisplay] at hshows
  refine ⟨display, last, _, hdisplay, hlast, toList_of_deliver hshows hdeliver, fun hcut ↦ ?_⟩
  rw [← (trimBreaks_display hlast hdisplay).2]
  refine cleanlyCut_cut_iff (Nat.lt_of_not_le fun hle ↦ hcut ?_)
  exact cut_of_le hle

/-- The report on the list of some texts. -/
def listReport (items : List String) : Report :=
  briefReport "list" ((sequence "list" items).displayText?.getD "") false

/-- A listing of two texts, cut in the line of the second. -/
theorem listing_cut_iff_secondLine :
    ∃ message body,
      (listReport ["abc", "abcdefghij"]).deliver (tight 131).sizeLimits = ⟨.ofText message, false⟩ ∧
      message.toList = (listReport ["abc", "abcdefghij"]).beforeOutput ++ body ++
        (listReport ["abc", "abcdefghij"]).afterOutput ∧
      body ≠ "Enumerable of type ``list``\n- ``abc``\n- ``abcdefghij``".toList ∧
      CleanlyCut "Enumerable of type ``list``\n- ``abc``\n- ``abcdefghij``".toList body := by
  have hreport : (Outcome.success (some (.list [.string "abc", .string "abcdefghij"])) (some 1)
      none).report (tight 131) plainHost "x" (.ofValue (tight 131).messageLimit
        (.list [.string "abc", .string "abcdefghij"])) =
      .ok (listReport ["abc", "abcdefghij"]) := rfl
  have hdeliver : (listReport ["abc", "abcdefghij"]).deliver (tight 131).sizeLimits = ⟨.ofText
      (briefOpening "list" ++ "Enumerable of type ``list``\n- ``abc``\n- ``…" ++
        "\nCompilation time: 1ms"), false⟩ := by
    decide +kernel
  obtain ⟨display, last, body, hdisplay, hlast, hmessage, hclean⟩ :=
    listing_cut_iff rfl hreport hdeliver
  obtain rfl : "Enumerable of type ``list``\n- ``abc``\n- ``abcdefghij``\n" = display :=
    Option.some.inj hdisplay
  obtain rfl : "abcdefghij" = last := Option.some.inj hlast
  have hcut : body ≠ "Enumerable of type ``list``\n- ``abc``\n- ``abcdefghij``".toList := by
    rintro rfl
    exact absurd hmessage (by decide +kernel)
  exact ⟨_, body, hdeliver, hmessage, hcut, (hclean hcut).2 (by decide +kernel)⟩

/-- A listing whose last text is empty is given a fence when it is cut. -/
theorem listing_cut_emptyText :
    (Outcome.success (some (.list [.string "abc", .string "abcdefghij", .string ""])) (some 1)
        none).report (tight 131) plainHost "x" (.ofValue (tight 131).messageLimit
          (.list [.string "abc", .string "abcdefghij", .string ""])) =
      .ok (listReport ["abc", "abcdefghij", ""]) ∧
    (listReport ["abc", "abcdefghij", ""]).deliver (tight 131).sizeLimits = ⟨.ofText
      (briefOpening "list" ++ "Enumerable of type ``list``\n- ``abc``\n-…```" ++
        "\nCompilation time: 1ms"), false⟩ ∧
    ¬ CleanlyCut "Enumerable of type ``list``\n- ``abc``\n- ``abcdefghij``\n- ````".toList
      "Enumerable of type ``list``\n- ``abc``\n-…```".toList := by
  have hcut : "Enumerable of type ``list``\n- ``abc``\n-…```".toList =
      cut "Enumerable of type ``list``\n- ``abc``\n- ``abcdefghij``\n- ````".toList 43 := by
    decide +kernel
  refine ⟨rfl, by decide +kernel, ?_⟩
  rw [hcut, cleanlyCut_cut_iff (by decide +kernel)]
  exact not_not_intro (by decide +kernel)

end Outcome

end Snippet
