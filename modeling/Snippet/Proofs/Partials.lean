import Snippet.Template.Render

/-!
# Templates with partials

A template is refused for its partials exactly if one of them occurs in its tree, be it in the body
of a block, in its other branch, in a definition, or inside any of these (`partials_refused`). Where
an element may occur is said by `Within`, which goes into every list that an element holds;
`anyUsesPartials_iff` compares that with what is looked for in a tree.

What makes the tree of a text is left open: all this holds for every parser, and asks nothing of it.
A text that is refused, for its partials or by the parser, is not rendered, so that none of its
calls sends anything.
-/

namespace Snippet.Template

/-! ### Where an element occurs -/

/-- The lists of elements that an element holds. -/
def Element.bodies : Element → List (List Element)
  | .value _ _ body otherwise | .call _ _ body otherwise | .block _ _ body otherwise =>
    body.toList ++ otherwise.toList
  | .decorator _ body | .inclusion body => body.toList
  | .text _ | .comment => []

/-- An element is one of some elements, or it is inside one of them. -/
inductive Within (e : Element) : List Element → Prop
  | here {elements} (h : e ∈ elements) : Within e elements
  | inside {outer body elements} (hmem : outer ∈ elements) (hbody : body ∈ outer.bodies)
      (h : Within e body) : Within e elements

/-- A partial occurs among some elements, or inside one of them. -/
def HasPartial (elements : List Element) : Prop :=
  ∃ body, Within (.inclusion body) elements

variable {e : Element} {elements elements' : List Element}

/-- What occurs among some elements occurs among more of them. -/
theorem Within.mono (h : Within e elements)
    (hsubset : elements ⊆ elements') : Within e elements' := by
  cases h with
  | here h => exact .here (hsubset h)
  | inside hmem hbody h => exact .inside (hsubset hmem) hbody h

theorem HasPartial.mono (h : HasPartial elements)
    (hsubset : elements ⊆ elements') : HasPartial elements' :=
  h.imp fun _ h ↦ h.mono hsubset

/-- What has a partial inside has one. -/
theorem HasPartial.inside {body : List Element} (h : HasPartial body) (hbody : body ∈ e.bodies) :
    HasPartial [e] :=
  h.imp fun _ h ↦ .inside (.head _) hbody h

theorem anyUsesPartials_eq_any (elements : List Element) :
    anyUsesPartials elements = elements.any Element.usesPartials := by
  induction elements with
  | nil => rw [anyUsesPartials, List.any_nil]
  | cons e rest ih => rw [anyUsesPartials, ih, List.any_cons]

theorem anyUsesPartials_of_mem (hmem : e ∈ elements) (h : e.usesPartials = true) :
    anyUsesPartials elements = true := by
  rw [anyUsesPartials_eq_any, List.any_eq_true]
  exact ⟨e, hmem, h⟩

/-- Every list that an element holds is looked into. -/
theorem usesPartials_of_mem_bodies {body : List Element} (hbody : body ∈ e.bodies)
    (h : anyUsesPartials body = true) : e.usesPartials = true := by
  have hnested {inner : Option (List Element)} (hmem : body ∈ inner.toList) :
      nestedUsesPartials inner = true := by
    rw [Option.mem_toList] at hmem
    rw [hmem]
    exact h
  cases e with
  | value _ _ _ _ | call _ _ _ _ | block _ _ _ _ =>
    exact Bool.or_eq_true_iff.2 ((List.mem_append.1 hbody).imp hnested hnested)
  | decorator _ _ => exact hnested hbody
  | inclusion _ => rfl
  | text _ | comment => cases hbody

/-- What is looked for inside of an element is found there. -/
theorem anyUsesPartials_of_within {partialBody : Option (List Element)}
    (h : Within (.inclusion partialBody) elements) : anyUsesPartials elements = true := by
  induction h with
  | here h => exact anyUsesPartials_of_mem h rfl
  | inside hmem hbody _ ih =>
    exact anyUsesPartials_of_mem hmem (usesPartials_of_mem_bodies hbody ih)

mutual

/-- What is found inside of elements occurs there. -/
theorem hasPartial_of_usesPartials : ∀ {e : Element}, e.usesPartials = true → HasPartial [e]
  | .inclusion body, _ => ⟨body, .here (.head _)⟩
  | .value _ _ _ _, h | .call _ _ _ _, h | .block _ _ _ _, h =>
    (Bool.or_eq_true_iff.1 h).elim
      (fun h ↦ have ⟨_, hmem, h⟩ := hasPartial_of_nestedUsesPartials h
        h.inside (List.mem_append_left _ hmem))
      fun h ↦ have ⟨_, hmem, h⟩ := hasPartial_of_nestedUsesPartials h
        h.inside (List.mem_append_right _ hmem)
  | .decorator _ _, h =>
    have ⟨_, hmem, h⟩ := hasPartial_of_nestedUsesPartials h
    h.inside hmem

theorem hasPartial_of_nestedUsesPartials : ∀ {body : Option (List Element)},
    nestedUsesPartials body = true → ∃ elements ∈ body.toList, HasPartial elements
  | some elements, h => ⟨elements, .head _, hasPartial_of_anyUsesPartials h⟩

theorem hasPartial_of_anyUsesPartials : ∀ {elements : List Element},
    anyUsesPartials elements = true → HasPartial elements
  | e :: rest, h =>
    (Bool.or_eq_true_iff.1 h).elim
      (fun h ↦ (hasPartial_of_usesPartials h).mono
        (List.cons_subset_cons e (List.nil_subset rest)))
      fun h ↦ (hasPartial_of_anyUsesPartials h).mono (List.subset_cons_self e rest)

end

theorem anyUsesPartials_iff (elements : List Element) :
    anyUsesPartials elements = true ↔ HasPartial elements :=
  ⟨hasPartial_of_anyUsesPartials, fun ⟨_, h⟩ ↦ anyUsesPartials_of_within h⟩

/-! ### Texts that are refused -/

variable {parser : Parser} {text : String}

theorem compileWith_of_ok (h : parser text = .ok elements) :
    compileWith parser text =
      if anyUsesPartials elements then .error "partials are not supported" else .ok elements := by
  rw [compileWith, h]
  rfl

theorem compileWith_of_error {message : String} (h : parser text = .error message) :
    compileWith parser text = .error message := by
  rw [compileWith, h]
  rfl

/-- A template is refused for its partials exactly if one of them occurs in its tree, at whatever
depth, and it is taken as it is if none does. It does not matter what makes trees of texts. A text
that is refused, for its partials or because it has no tree, sends nothing: neither is the host
asked for anything, nor does any of the calls in the text run. -/
theorem partials_refused (parser : Parser) (text : String) :
    (∀ elements, parser text = .ok elements →
      (compileWith parser text = .error "partials are not supported" ↔ HasPartial elements) ∧
      (compileWith parser text = .ok elements ↔ ¬ HasPartial elements)) ∧
    (∀ message, parser text = .error message → compileWith parser text = .error message) ∧
    ∀ message, compileWith parser text = .error message → ∀ context outbox,
      evaluateWith parser context text outbox = (.ok (.error (.compile message)), outbox) := by
  refine ⟨fun elements h ↦ ?_, fun message h ↦ compileWith_of_error h,
    fun message h context outbox ↦ ?_⟩
  · rw [compileWith_of_ok h, ← anyUsesPartials_iff]
    cases anyUsesPartials elements <;> simp
  · rw [evaluateWith, h]

/-- The tree of a block with a partial inside. -/
def includesLayout : List Element :=
  let invoker : Param := .path ⟨"invoker", .block 0, ["invoker"]⟩
  [.block ⟨"if", [invoker], []⟩ [] (some [.inclusion (some [.text "body"])]) none]

/-- Its text. -/
def includesLayoutText : String :=
  "\x7b\x7b#if invoker\x7d\x7d\x7b\x7b#> layout\x7d\x7dbody" ++
    "\x7b\x7b/layout\x7d\x7d\x7b\x7b/if\x7d\x7d"

/-- A parser that knows this text only. -/
def includesLayoutParser : Parser := fun text ↦
  if text = includesLayoutText then .ok includesLayout else .error "invalid syntax"

/-- The text is refused, and nothing is sent. -/
theorem partials_refused_includesLayout :
    includesLayoutParser includesLayoutText = .ok includesLayout ∧ HasPartial includesLayout ∧
      compileWith includesLayoutParser includesLayoutText = .error "partials are not supported" ∧
      ∀ context outbox, evaluateWith includesLayoutParser context includesLayoutText outbox =
        (.ok (.error (.compile "partials are not supported")), outbox) := by
  have htext : includesLayoutParser includesLayoutText = .ok includesLayout := if_pos rfl
  have hpartial : HasPartial includesLayout :=
    ⟨_, .inside (.head _) (.head _) (.here (.head _))⟩
  obtain ⟨htree, -, hsilent⟩ := partials_refused includesLayoutParser includesLayoutText
  have hrefused := (htree includesLayout htext).1.2 hpartial
  exact ⟨htext, hpartial, hrefused, hsilent _ hrefused⟩

end Snippet.Template
