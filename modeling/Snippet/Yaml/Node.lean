import Snippet.Yaml.Token

/-!
# Nodes of YAML

A node is a scalar, a sequence or a mapping. Where nothing stands, there is an empty plain scalar.
An alias is the node that it names; inside that node itself it stands for no scalar.

A phrase takes tokens from the front of the list. Phrases that follow one another always take at
least one token between them, and a phrase that starts where another one does has a lower rank:
this is why reading ends.
-/

namespace Snippet.Yaml

/-- A node. -/
inductive Node where
  | scalar (text : String) (style : Style) (tag : Option String)
  | sequence (items : List Node)
  | mapping (entries : List (Node × Node))
  deriving Repr, Inhabited

/-- What stands where nothing stands. -/
def Node.empty : Node :=
  .scalar "" .plain none

/-- The nodes that have been named so far, latest first. -/
abbrev Anchors :=
  List (String × Node)

/-- What a phrase has taken from the front of some tokens. -/
structure Phrase (ts : List Token) (α : Type) where
  result : α
  rest : List Token
  anchors : Anchors
  le : rest.length ≤ ts.length

namespace Phrase

variable {ts : List Token} {α β : Type}

/-- Takes nothing. -/
def nothing (ts : List Token) (a : α) (anchors : Anchors) : Phrase ts α :=
  ⟨a, ts, anchors, Nat.le_refl _⟩

/-- The same tokens with another result. -/
def map (f : α → β) (p : Phrase ts α) : Phrase ts β :=
  ⟨f p.result, p.rest, p.anchors, p.le⟩

/-- The same result, with one more token in front of those taken. -/
def after {t : Token} (p : Phrase ts α) : Phrase (t :: ts) α :=
  ⟨p.result, p.rest, p.anchors, by
    have := p.le
    simp
    omega⟩

/-- The result of a phrase that starts where `p` stopped. -/
def append (p : Phrase ts α) (q : Phrase p.rest β) : Phrase ts β :=
  ⟨q.result, q.rest, q.anchors, Nat.le_trans q.le p.le⟩

end Phrase

/-- What stands in front of a node: a name for it and a tag. -/
structure Properties where
  name : Option String
  tag : Option String
  deriving Repr, Inhabited

/-- The full name of a tag. Of the handles, two are known everywhere. -/
def tagName? (handles : List String) (handle suffix : String) : Option String :=
  if handle == "" || handle == "!" then some (handle ++ suffix)
  else if handle == "!!" then some ("tag:yaml.org,2002:" ++ suffix)
  else if handles.contains handle then some (handle ++ suffix)
  else none

/-- The properties ahead. -/
def properties (handles : List String) (ts : List Token) (anchors : Anchors) :
    Option (Phrase ts Properties) :=
  match ts with
  | .anchor name :: .tag handle suffix :: rest
  | .tag handle suffix :: .anchor name :: rest =>
    (tagName? handles handle suffix).map fun tag ↦
      ((Phrase.nothing rest ⟨some name, some tag⟩ anchors).after).after
  | .anchor name :: rest => some (Phrase.nothing rest ⟨some name, none⟩ anchors).after
  | .tag handle suffix :: rest =>
    (tagName? handles handle suffix).map fun tag ↦
      (Phrase.nothing rest ⟨none, some tag⟩ anchors).after
  | ts => some (.nothing ts ⟨none, none⟩ anchors)

/-- Names a node that was given its place among the named ones before it was read. -/
def nameNode (place : Nat) (name : String) (node : Node) (anchors : Anchors) : Anchors :=
  anchors.set (anchors.length - 1 - place) (name, node)

/-- Where a node may stand. -/
inductive Position where
  /-- In a flow collection. -/
  | flow
  | block
  /-- In a mapping, where a sequence need not be indented. -/
  | entry
  deriving DecidableEq, Repr, Inhabited

mutual

/-- A node. -/
def node (handles : List String) (position : Position) (ts : List Token) (anchors : Anchors) :
    Option (Phrase ts Node) :=
  match ts with
  | .alias name :: rest => do
    let found ← anchors.lookup name
    return (Phrase.nothing rest found anchors).after
  | ts => do
    let p ← properties handles ts anchors
    have := p.le
    match p.result.name with
    | none => return p.append (← content handles position p.result p.rest anchors)
    | some name =>
      -- an alias inside the node itself finds a node that is no scalar
      let q ← content handles position p.result p.rest ((name, .sequence []) :: anchors)
      return p.append { q with anchors := nameNode anchors.length name q.result q.anchors }
termination_by (ts.length, 3)
decreasing_by
  all_goals simp only [Prod.lex_def]
  all_goals simp +zetaDelta at *
  all_goals omega

/-- A node behind its properties. -/
def content (handles : List String) (position : Position) (props : Properties)
    (ts : List Token) (anchors : Anchors) : Option (Phrase ts Node) :=
  match ts with
  | .item :: rest =>
    if position = .entry then
      (looseItems handles (.item :: rest) anchors).map (·.map Node.sequence)
    else if props.name.isSome || props.tag.isSome then
      some (.nothing (.item :: rest) .empty anchors)
    else none
  | .scalar text style :: rest =>
    some (Phrase.nothing rest (Node.scalar text style props.tag) anchors).after
  | .flowSequence :: rest =>
    (flowItems handles true rest anchors).map fun p ↦ (p.map Node.sequence).after
  | .flowMapping :: rest =>
    (flowEntries handles true rest anchors).map fun p ↦ (p.map Node.mapping).after
  | .blockSequence :: rest =>
    if position = .flow then
      if props.name.isSome || props.tag.isSome then
        some (.nothing (.blockSequence :: rest) .empty anchors)
      else none
    else (blockItems handles rest anchors).map fun p ↦ (p.map Node.sequence).after
  | .blockMapping :: rest =>
    if position = .flow then
      if props.name.isSome || props.tag.isSome then
        some (.nothing (.blockMapping :: rest) .empty anchors)
      else none
    else (blockEntries handles rest anchors).map fun p ↦ (p.map Node.mapping).after
  | ts =>
    if props.name.isSome || props.tag.isSome then some (.nothing ts .empty anchors) else none
termination_by (ts.length, 2)

/-- A node, or the empty one in front of some token that ends its place. -/
def nodeUnless (handles : List String) (ends : List Token) (position : Position) (ts : List Token)
    (anchors : Anchors) : Option (Phrase ts Node) :=
  match ts.head? with
  | some t =>
    if ends.contains t then some (.nothing ts .empty anchors)
    else node handles position ts anchors
  | none => none
termination_by (ts.length, 4)

/-- The items of a block sequence. -/
def blockItems (handles : List String) (ts : List Token) (anchors : Anchors) :
    Option (Phrase ts (List Node)) :=
  match ts with
  | .item :: rest => do
    let p ← nodeUnless handles [.item, .blockEnd] .block rest anchors
    have := p.le
    let q ← blockItems handles p.rest p.anchors
    return (p.append (q.map (p.result :: ·))).after
  | .blockEnd :: rest => some (Phrase.nothing rest [] anchors).after
  | _ => none
termination_by (ts.length, 1)

/-- The items of a sequence that is not indented. -/
def looseItems (handles : List String) (ts : List Token) (anchors : Anchors) :
    Option (Phrase ts (List Node)) :=
  match ts with
  | .item :: rest => do
    let p ← nodeUnless handles [.item, .key, .value, .blockEnd] .block rest anchors
    have := p.le
    let q ← looseItems handles p.rest p.anchors
    return (p.append (q.map (p.result :: ·))).after
  | ts => some (.nothing ts [] anchors)
termination_by (ts.length, 1)

/-- The entries of a block mapping. -/
def blockEntries (handles : List String) (ts : List Token) (anchors : Anchors) :
    Option (Phrase ts (List (Node × Node))) :=
  match ts with
  | .key :: rest => do
    let p ← nodeUnless handles [.key, .value, .blockEnd] .entry rest anchors
    have := p.le
    let q ← entryValue handles [.key, .value, .blockEnd] .entry p.rest p.anchors
    have := q.le
    let r ← blockEntries handles q.rest q.anchors
    return (p.append (q.append (r.map ((p.result, q.result) :: ·)))).after
  | .blockEnd :: rest => some (Phrase.nothing rest [] anchors).after
  | _ => none
termination_by (ts.length, 1)

/-- The value of an entry, if there is one. -/
def entryValue (handles : List String) (ends : List Token) (position : Position) (ts : List Token)
    (anchors : Anchors) : Option (Phrase ts Node) :=
  match ts with
  | .value :: rest => (nodeUnless handles ends position rest anchors).map (·.after)
  | ts => some (.nothing ts .empty anchors)
termination_by (ts.length, 0)

/-- The items of a flow sequence. An item with a colon is a mapping of its own. -/
def flowItems (handles : List String) (isFirst : Bool) (ts : List Token) (anchors : Anchors) :
    Option (Phrase ts (List Node)) :=
  match isFirst, ts with
  | _, .flowSequenceEnd :: rest => some (Phrase.nothing rest [] anchors).after
  | false, .comma :: .flowSequenceEnd :: rest =>
    some (Phrase.nothing rest [] anchors).after.after
  | false, .comma :: rest => (flowItems handles true rest anchors).map (·.after)
  | true, .key :: rest => do
    let ends := [.comma, .flowSequenceEnd]
    let p ← nodeUnless handles (.value :: ends) .flow rest anchors
    have := p.le
    let q ← entryValue handles ends .flow p.rest p.anchors
    have := q.le
    let r ← flowItems handles false q.rest q.anchors
    return (p.append (q.append (r.map (.mapping [(p.result, q.result)] :: ·)))).after
  | true, ts => do
    let p ← node handles .flow ts anchors
    -- a node that takes no token would be read for ever
    if p.rest.length < ts.length then
      let q ← flowItems handles false p.rest p.anchors
      return p.append (q.map (p.result :: ·))
    else none
  | false, _ => none
termination_by (ts.length, 5)

/-- The entries of a flow mapping. An entry without a colon has an empty value. -/
def flowEntries (handles : List String) (isFirst : Bool) (ts : List Token) (anchors : Anchors) :
    Option (Phrase ts (List (Node × Node))) :=
  match isFirst, ts with
  | _, .flowMappingEnd :: rest => some (Phrase.nothing rest [] anchors).after
  | false, .comma :: .flowMappingEnd :: rest =>
    some (Phrase.nothing rest [] anchors).after.after
  | false, .comma :: rest => (flowEntries handles true rest anchors).map (·.after)
  | true, .key :: rest => do
    let ends := [.comma, .flowMappingEnd]
    let p ← nodeUnless handles (.value :: ends) .flow rest anchors
    have := p.le
    let q ← entryValue handles ends .flow p.rest p.anchors
    have := q.le
    let r ← flowEntries handles false q.rest q.anchors
    return (p.append (q.append (r.map ((p.result, q.result) :: ·)))).after
  | true, ts => do
    let p ← node handles .flow ts anchors
    if p.rest.length < ts.length then
      let q ← flowEntries handles false p.rest p.anchors
      return p.append (q.map ((p.result, .empty) :: ·))
    else none
  | false, _ => none
termination_by (ts.length, 5)

end

/-- The directives in front of a document: the handles for tags. There is one version at most, and
no handle twice. -/
def directives (hasVersion : Bool) (handles : List String) :
    List Token → Option (List String × List Token)
  | .version isKnown :: rest =>
    if isKnown && !hasVersion then directives true handles rest else none
  | .handle name :: rest =>
    if handles.contains name then none else directives hasVersion (name :: handles) rest
  | rest => some (handles, rest)

/-- The one document of a text: its node, or nothing if there is no document. -/
def document? (text : String) : Option (Option Node) := do
  let ts ← tokens? text
  let finish (rest : List Token) (n : Node) : Option (Option Node) :=
    if rest.all (· == .documentEnd) then some (some n) else none
  match ts with
  | [] => return none
  | .version _ :: _ | .handle _ :: _ | .documentStart :: _ =>
    let (handles, rest) ← directives false [] ts
    match rest with
    | .documentStart :: [] => return some .empty
    | .documentStart :: .documentEnd :: rest => finish rest .empty
    | .documentStart :: rest =>
      let p ← node handles .block rest []
      finish p.rest p.result
    | _ => none
  | ts =>
    let p ← node [] .block ts []
    finish p.rest p.result

end Snippet.Yaml
