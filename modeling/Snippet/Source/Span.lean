import Snippet.Source.Bytes

/-!
# Places in a source text

Offsets count characters, never bytes, although a text is cut at bytes to show what stands at a
place. A `Span` belongs to a node of a syntax tree; a `Location` belongs to a message and may also
say that the message has no place in the text.
-/

namespace Snippet

/-- The characters from `start` up to, but not including, `stop`. -/
structure Span where
  start : Nat
  stop : Nat
  deriving DecidableEq, Repr, Inhabited

/-- The least span that holds both spans. -/
def Span.join (a b : Span) : Span :=
  ⟨min a.start b.start, max a.stop b.stop⟩

/-- Where a message points: a range of the source, or nowhere in it. -/
inductive Location where
  | inSource (start stop : Nat)
  | metadata
  deriving DecidableEq, Repr, Inhabited

namespace Location

/-- A range of the source. A range that would end before it starts is empty. -/
def range (start stop : Nat) : Location :=
  .inSource start (max start stop)

/-- The key by which messages are ordered. A message without a place comes first. -/
def start : Location → Nat
  | .inSource start _ => start
  | .metadata => 0

/-- The bytes that a location points at, unless it is empty or lies behind the text. -/
def byteRange? (source : List Char) : Location → Option (Nat × Nat)
  | .metadata => none
  | .inSource start stop =>
    if start = stop then none
    else (charStarts 0 source)[start]?.map fun first ↦ (first, byteAt source stop)

/-- The text that a location points at. -/
def excerpt? (source : String) (location : Location) : Option String := do
  let (first, last) ← location.byteRange? source.toList
  let chars ← slice? first last source.toList
  return String.ofList chars

/-- The written form of a location in a report. -/
def text : Location → String
  | .metadata => "Metadata"
  | .inSource start stop => if start = stop then s!"Ch {start}" else s!"Ch {start}-{stop}"

end Location

/-- The range of a node, as the place of a message. -/
def Span.location (s : Span) : Location :=
  .range s.start s.stop

end Snippet
