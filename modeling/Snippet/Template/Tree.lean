import Snippet.Json.Basic

/-!
# Templates

A template is a list of elements: text, and tags that stand for a value, call a helper, or enclose
other elements. Blanks around tags have already been settled, so that text is written as it is.

Partials are part of the tree, so that a template that uses them can be told from one that does
not (`anyUsesPartials`). None is ever rendered.
-/

namespace Snippet.Template

/-- Where a path starts. -/
inductive PathStart where
  /-- At the data of the whole template. -/
  | root
  /-- At the data of the block this many levels out. -/
  | block (levels : Nat)
  /-- At the variables of the block this many levels out; the path's first name is one of them. -/
  | locals (levels : Nat)
  deriving DecidableEq, Repr, Inhabited

/-- A path to a value, with the text it was written as. -/
structure Path where
  text : String
  start : PathStart
  names : List String
  deriving DecidableEq, Repr, Inhabited

/-- What a helper is given. -/
inductive Param where
  | path (path : Path)
  | literal (value : Json)
  | call (helper : String) (params : List Param) (options : List (String × Param))
  deriving Repr, Inhabited

/-- A helper with its arguments, by position and by name. -/
structure Call where
  helper : String
  params : List Param
  options : List (String × Param)
  deriving Repr, Inhabited

/-- A part of a template. What belongs to a helper may hold two lists of parts that the helper may
render, the second one in place of the first. -/
inductive Element where
  | text (text : String)
  /-- A tag for a value. Markup is written as it is, whatever becomes of other values. -/
  | value (markup : Bool) (source : Param) (body otherwise : Option (List Element))
  | call (markup : Bool) (call : Call) (body otherwise : Option (List Element))
  /-- The names are for what the helper hands to the first list. -/
  | block (call : Call) (names : List String) (body otherwise : Option (List Element))
  | comment
  /-- A tag that changes how the template is rendered. -/
  | decorator (call : Call) (body : Option (List Element))
  /-- A tag that stands for another template. -/
  | inclusion (body : Option (List Element))
  deriving Repr, Inhabited

mutual

/-- Whether an element is a partial or has one inside. -/
def Element.usesPartials : Element → Bool
  | .inclusion _ => true
  | .value _ _ body otherwise | .call _ _ body otherwise | .block _ _ body otherwise =>
    nestedUsesPartials body || nestedUsesPartials otherwise
  | .decorator _ body => nestedUsesPartials body
  | .text _ | .comment => false

/-- Whether there are elements, and one of them is a partial or has one inside. -/
def nestedUsesPartials : Option (List Element) → Bool
  | none => false
  | some elements => anyUsesPartials elements

/-- Whether one of the elements is a partial or has one inside. -/
def anyUsesPartials : List Element → Bool
  | [] => false
  | e :: rest => e.usesPartials || anyUsesPartials rest

end

end Snippet.Template
