import Snippet.Report.Render

/-!
# The size of what is sent

The chat refuses a text of too many characters, and a document with a field of too many. No answer
with a report and no answer to a template is refused for its size (`respond_within_limits`),
whatever the limits are: they may be zero, and the texts that go into a report may be as long as
they like.

A document is sent only where every block fits into a field. A plain text is cut part by part, and
this may fail to make it short enough; what the limit rests on is the last cut, of the whole text
(`length_plainBounded_le`).
-/

namespace Snippet

/-- What the chat does not refuse for its size: one text, or one document. -/
inductive Message.Within (limits : SizeLimits) : Message → Prop
  | text {text : String} (h : text.length ≤ limits.message) : Within limits (.ofText text)
  | document {document : Document} (h : ∀ field ∈ document.fields,
      field.value.length ≤ limits.field) : Within limits (.ofDocument document)

namespace Text

/-- A hard cut keeps its limit, also where it has nothing to cut. -/
theorem length_cutPlain_le (s : List Char) (limit : Nat) : (cutPlain s limit).length ≤ limit := by
  rcases Nat.lt_or_ge limit s.length with h | h
  · exact Nat.le_of_eq (length_cutPlain_of_lt h)
  · rwa [cutPlain_of_le h]

theorem length_shortenPlain_le (s : String) (limit : Nat) :
    (shortenPlain s limit).length ≤ limit := by
  rw [shortenPlain, String.length_ofList]
  exact length_cutPlain_le s.toList limit

end Text

namespace Report

variable {limits : SizeLimits} {r : Report}

/-- However little the cuts of the single parts have saved, the plain text keeps its limit. -/
theorem length_plainBounded_le (limit : Nat) (r : Report) :
    (r.plainBounded limit).1.length ≤ limit := by
  unfold plainBounded
  dsimp only
  split
  · assumption
  · exact Text.length_cutPlain_le _ limit

/-- The fields of a document are the blocks of the report, each with its whole text. -/
theorem length_value_le_of_isEmbeddable (h : r.isEmbeddable limits.field = true) {field : Field}
    (hfield : field ∈ r.document.fields) : field.value.length ≤ limits.field := by
  obtain ⟨⟨heading, body⟩, hblock, rfl⟩ := List.mem_map.1 hfield
  obtain ⟨-, hall⟩ := Bool.and_eq_true_iff.1 h
  exact of_decide_eq_true (List.all_eq_true.1 hall _ hblock)

/-- A report is delivered in a form that the chat takes. -/
theorem deliver_within (limits : SizeLimits) (r : Report) :
    (r.deliver limits).message.Within limits := by
  unfold deliver
  split
  · next h => exact .document fun field hfield ↦ length_value_le_of_isEmbeddable h hfield
  · refine .text ?_
    rw [String.length_ofList]
    exact length_plainBounded_le limits.message r

end Report

namespace Outcome

variable {settings : Settings} {context : Context} {outcome : Outcome}

/-- Only a ready response is displayed as one. -/
theorem classified_ne_response (h : ∀ r, outcome.value? ≠ some (.response r)) (r : Response) :
    outcome.classified settings ≠ .response r := by
  unfold classified
  rcases hv : outcome.value? with - | v
  · nofun
  · cases v with
    | response s => exact absurd hv (h s)
    | _ => nofun

/-- A host that knows the bot and its colour lets every outcome be reported. -/
theorem exists_report {icon : Option String} {color : Option Color} (source : String)
    (form : Classified) (hicon : context.avatar = .ok icon) (hcolor : context.accent = .ok color) :
    ∃ report, outcome.report settings context source form = .ok report := by
  unfold report
  rw [hicon, hcolor]
  exact ⟨_, rfl⟩

/-- An outcome without a ready response is answered with its report. -/
theorem respond_eq_of_report {source : String} {report : Report}
    (hvalue : ∀ r, outcome.value? ≠ some (.response r))
    (hreport : outcome.report settings context source (outcome.classified settings) =
      .ok report) :
    outcome.respond settings context source =
      .ok (.ok (report.deliver settings.sizeLimits).message) := by
  unfold respond
  split
  · next r hr => exact absurd hr (classified_ne_response hvalue r)
  · rw [hreport]
    rfl

end Outcome

/-- **Answers keep the limits of the chat.** Where the host answers both look-ups, an outcome
without a ready response is answered with its report, in one text or one document that the chat
takes. A template is answered with one text that it takes or, where there is no text, with
nothing. -/
theorem respond_within_limits (settings : Settings) :
    (∀ {context : Context} {icon : Option String} {color : Option Color} (source : String)
      (outcome : Outcome), context.avatar = .ok icon → context.accent = .ok color →
      (∀ r, outcome.value? ≠ some (.response r)) →
      ∃ report message,
        outcome.report settings context source (outcome.classified settings) = .ok report ∧
        (report.deliver settings.sizeLimits).message = message ∧
        outcome.respond settings context source = .ok (.ok message) ∧
        message.Within settings.sizeLimits) ∧
    ∀ text : String, (text = "" ∧ respondText settings text = .empty) ∨
      ∃ answer : String, respondText settings text = .ofText answer ∧
        answer.length ≤ settings.messageLimit := by
  refine ⟨fun source outcome hicon hcolor hvalue ↦ ?_, fun text ↦ ?_⟩
  · obtain ⟨report, hreport⟩ :=
      Outcome.exists_report source (outcome.classified settings) hicon hcolor
    exact ⟨report, _, hreport, rfl, Outcome.respond_eq_of_report hvalue hreport,
      report.deliver_within _⟩
  · unfold respondText
    split
    · next h => exact .inl ⟨String.isEmpty_iff.1 h, rfl⟩
    · exact .inr ⟨_, rfl, Text.length_shortenPlain_le text settings.messageLimit⟩

/-- Settings under which no report fits: not even the mark for a missing end. -/
def noRoom : Settings :=
  { Settings.standard with fieldLimit := 0, messageLimit := 0 }

/-- A host that knows its bot, a picture of it and no colour. -/
def plainHost : Context :=
  .ofBot ⟨3, "abyss", some "https://cdn/abyss.png"⟩ none ⟨7, "ada", none⟩ ⟨0, ⟨0, by decide⟩⟩
    "trace"

/-- With no room at all, an exception and a template are still answered. -/
theorem respond_within_limits_noRoom :
    (∃ message, (Outcome.runtimeFailure ⟨"ScriptError", "bad"⟩ (some 2)).respond noRoom plainHost
        "throw \"bad\";" = .ok (.ok message) ∧ message.Within ⟨0, 0⟩) ∧
      ∃ answer : String, respondText noRoom "abc" = .ofText answer ∧ answer.length ≤ 0 := by
  obtain ⟨hreports, htexts⟩ := respond_within_limits noRoom
  constructor
  · obtain ⟨_, message, -, -, hrespond, hwithin⟩ :=
      @hreports plainHost (some "https://cdn/abyss.png") none "throw \"bad\";"
        (.runtimeFailure ⟨"ScriptError", "bad"⟩ (some 2)) rfl rfl fun _ ↦ nofun
    exact ⟨message, hrespond, hwithin⟩
  · exact (htexts "abc").resolve_left fun habc ↦ absurd habc.1 (by decide)

end Snippet
