import Snippet.Proofs.Lexemes
import Snippet.Proofs.NodePlaces
import Snippet.Script.Parse

/-!
# Reported places

The grammar reports bytes, and the parser looks up in a table to which characters they belong. All
that is found stands in the text. So what is looked up are the places that matching has counted, and
the parser answers as if these had been reported (`parse_of_node`, `parse_of_attempts`). Where a
text fails to match it can be cut (`cutAt?_of_report`), since it fails at the start of a character
or at its end.
-/

namespace Snippet

namespace Grammar

variable {σ : Type} {g : Language σ} {source : List Char}

mutual

theorem Node.mapPlaces_mapPlaces (f f' : Nat → Nat) (node : Node σ) :
    (node.mapPlaces f).mapPlaces f' = node.mapPlaces (f' ∘ f) := by
  obtain ⟨symbol, span, text, parts⟩ := node
  rw [Node.mapPlaces, Node.mapPlaces, Node.mapPlaces, Node.mapPlacesAll_mapPlacesAll]
  rfl

theorem Node.mapPlacesAll_mapPlacesAll (f f' : Nat → Nat) (nodes : List (Node σ)) :
    Node.mapPlacesAll f' (Node.mapPlacesAll f nodes) = Node.mapPlacesAll (f' ∘ f) nodes := by
  cases nodes with
  | nil => rfl
  | cons node rest =>
    rw [Node.mapPlacesAll, Node.mapPlacesAll, Node.mapPlacesAll, Node.mapPlaces_mapPlaces,
      Node.mapPlacesAll_mapPlacesAll]

end

theorem Node.mapPlacesAll_eq_self {f : Nat → Nat} {nodes : List (Node σ)}
    (h : ∀ node ∈ nodes, node.mapPlaces f = node) : Node.mapPlacesAll f nodes = nodes := by
  induction nodes with
  | nil => rfl
  | cons node rest ih =>
    obtain ⟨hnode, hrest⟩ := List.forall_mem_cons.1 h
    rw [Node.mapPlacesAll, hnode, ih hrest]

/-- What keeps the places in a text keeps the nodes that stand there. -/
theorem Node.Stands.mapPlaces_eq_self {f : Nat → Nat} {node : Node σ} (h : node.Stands g source)
    (hf : ∀ n ≤ source.length, f n = n) : node.mapPlaces f = node := by
  induction h with
  | token _ _ hle hstop =>
    rw [Node.mapPlaces, hf _ hstop, hf _ (Nat.le_trans hle hstop)]
    rfl
  | phrase _ _ hle hstop _ _ ih =>
    rw [Node.mapPlaces, hf _ hstop, hf _ (Nat.le_trans hle hstop), Node.mapPlacesAll_eq_self ih]

theorem report_of_ok {symbol : σ} {node : Node σ} (h : g.parse symbol source = .ok node) :
    g.report symbol source = .ok (node.mapPlaces (byteAt source)) := by
  rw [Language.report, h]
  simp only [List.getElem?_toArray]
  rfl

theorem report_of_error {symbol : σ} {tried : Attempts σ}
    (h : g.parse symbol source = .error tried) :
    g.report symbol source = .error ⟨byteAt source tried.place, tried.symbols⟩ := by
  rw [Language.report, h]
  simp only [List.getElem?_toArray]
  rfl

/-- Looked up in the table of the text, a reported node is the node that was found. -/
theorem Language.Bounded.mapPlaces_report (hg : g.Bounded) {symbol : σ} {node : Node σ}
    (h : g.parse symbol source = .ok node) :
    (node.mapPlaces (byteAt source)).mapPlaces (Offsets.ofText source).charAt = node := by
  rw [Node.mapPlaces_mapPlaces]
  exact (hg.stands_parse h).1.mapPlaces_eq_self fun n hn ↦ Offsets.charAt_byteAt hn

end Grammar

namespace Script

open Grammar

theorem language_bounded : language.Bounded := fun _ _ hrule _ _ hn ↦ le_length_of_rule hrule hn

variable {source : String}

/-- A text that matches is built from the nodes that are found in it. -/
theorem parse_of_node {node : Node Symbol} (hguard : checkNesting source.toList = .ok ())
    (h : language.parse .program source.toList = .ok node) :
    parse source = programOf node.parts := by
  rw [parse, hguard, report_of_ok h]
  exact congrArg (programOf ·.parts) (language_bounded.mapPlaces_report h)

/-- A text that does not match is refused where it fails to, and for what stands there. -/
theorem parse_of_attempts {tried : Attempts Symbol} (hguard : checkNesting source.toList = .ok ())
    (h : language.parse .program source.toList = .error tried) :
    parse source = .error
      ⟨syntaxProblem (foundToken (source.toList.drop tried.place)) tried.symbols,
        ⟨tried.place, tried.place⟩⟩ := by
  have hplace := Offsets.charAt_byteAt (language_bounded.place_le_of_parse h)
  have hcut := cutAt?_byteAt source.toList tried.place
  rw [parse, hguard, report_of_error h]
  dsimp only [bind, Except.bind]
  rw [syntaxComplaint, Nat.min_eq_left (byteAt_le ..), hcut, hplace]
  rfl

/-- What a text fails at starts at a character, or behind the last one. -/
theorem cutAt?_of_report {tried : Attempts Symbol}
    (h : language.report .program source.toList = .error tried) :
    (cutAt? (min tried.place (byteLength source.toList)) source.toList).isSome = true := by
  cases hparse : language.parse .program source.toList with
  | ok node => cases h.symm.trans (report_of_ok hparse)
  | error found =>
    cases h.symm.trans (report_of_error hparse)
    rw [Nat.min_eq_left (byteAt_le ..), cutAt?_byteAt]
    rfl

end Script

end Snippet
