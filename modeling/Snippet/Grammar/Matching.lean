import Snippet.Grammar.Pattern
import Snippet.Source.Bytes

/-!
# Matching a pattern

`Language.run` matches a pattern at one place of a text. It answers with the rest of the text and
the nodes found, and it always answers with the `Attempts`: the symbols that failed at the
furthest place any of them was tried at. A text that does not match is explained by them.

The symbols of one place are kept as few as explain the failure. When a symbol fails, the symbols
that failed inside it at the same place are forgotten in its favour, except that a single one of
them, being more exact, is kept instead.

The recursion is on the number of characters left, then on the rank below which a phrase may
still be entered here, then on the pattern.

Matching counts characters. What it reports of a whole text counts bytes (`Language.report`).
-/

namespace Snippet.Grammar

variable {σ : Type}

/-- The symbols that failed at the furthest place reached, oldest first. -/
structure Attempts (σ : Type) where
  place : Nat
  symbols : List σ

namespace Attempts

/-- Nothing has been tried yet. -/
def none : Attempts σ :=
  ⟨0, []⟩

/-- How many symbols are known to have failed at a place. -/
def countAt (a : Attempts σ) (place : Nat) : Nat :=
  if a.place = place then a.symbols.length else 0

/-- Records that a symbol entered at `place`, when `before` symbols had failed there, failed. -/
def note (a : Attempts σ) (symbol : σ) (place before : Nat) : Attempts σ :=
  if a.countAt place = before + 1 then a
  else if place = a.place then ⟨place, a.symbols.take before ++ [symbol]⟩
  else if a.place < place then ⟨place, [symbol]⟩
  else a

end Attempts

/-- The text behind its first `n` characters, and how many of them there were. -/
def advance : Nat → List Char → Nat × List Char
  | 0, s => (0, s)
  | _ + 1, [] => (0, [])
  | n + 1, _ :: s =>
    let (moved, rest) := advance n s
    (moved + 1, rest)

@[simp]
theorem length_advance (n : Nat) (s : List Char) :
    (advance n s).2.length + (advance n s).1 = s.length := by
  fun_induction advance n s <;> simp_all
  omega

/-- What was matched at `place`: the text behind it, where that starts, and the nodes. -/
structure Match (σ : Type) (s : List Char) (place : Nat) where
  rest : List Char
  stop : Nat
  nodes : List (Node σ)
  le : place ≤ stop
  length_add : rest.length + stop = s.length + place

namespace Match

variable {s : List Char} {place : Nat}

/-- Nothing was taken. -/
def nothing (s : List Char) (place : Nat) : Match σ s place :=
  ⟨s, place, [], Nat.le_refl _, rfl⟩

/-- The next `n` characters were taken, as these nodes. -/
def take (s : List Char) (place n : Nat) (nodes : List (Node σ)) : Match σ s place :=
  ⟨(advance n s).2, place + (advance n s).1, nodes, Nat.le_add_right _ _, by
    have := length_advance n s
    omega⟩

/-- The same match, seen as the parts of one node. -/
def wrap (m : Match σ s place) (symbol : σ) : Match σ s place :=
  { m with nodes := [.mk symbol (place, m.stop) [] m.nodes] }

/-- Moves over `gap` further characters. -/
def skip (m : Match σ s place) (gap : Nat) : Match σ s place :=
  ⟨(advance gap m.rest).2, m.stop + (advance gap m.rest).1, m.nodes,
    Nat.le_trans m.le (Nat.le_add_right _ _), by
      have := length_advance gap m.rest
      have := m.length_add
      omega⟩

/-- A match that goes on where `m` stopped. -/
def append (m : Match σ s place) (n : Match σ m.rest m.stop) : Match σ s place :=
  ⟨n.rest, n.stop, m.nodes ++ n.nodes, Nat.le_trans m.le n.le, by
    have := m.length_add
    have := n.length_add
    omega⟩

/-- What is left is shorter by what was taken. -/
theorem length_lt (m : Match σ s place) (h : place < m.stop) : m.rest.length < s.length := by
  have := m.length_add
  omega

end Match

/-- How many characters are skipped between two parts of a phrase. -/
def Language.gap (g : Language σ) (spaced : Bool) (s : List Char) : Nat :=
  if spaced then g.blanks s else 0

/-- Matches a pattern at a place of a text. A phrase is entered only below `limit`, until a
character has been taken. -/
def Language.run (g : Language σ) (spaced : Bool) (limit : Nat) (p : Pattern σ) (s : List Char)
    (place : Nat) (tried : Attempts σ) : Option (Match σ s place) × Attempts σ :=
  match p with
  | .text chars =>
    (if chars.isPrefixOf s then some (.take s place chars.length []) else none, tried)
  | .call symbol =>
    let before := tried.countAt place
    match g.rule symbol with
    | .token lexeme =>
      match lexeme s with
      | some n => (some (.take s place n [.mk symbol (place, place + n) (s.take n) []]), tried)
      | none => (none, tried.note symbol place before)
    | .phrase spacedInside body =>
      if h : g.rank symbol < limit then
        match g.run spacedInside (g.rank symbol) body s place tried with
        | (some m, tried) => (some (m.wrap symbol), tried)
        | (none, tried) => (none, tried.note symbol place before)
      else (none, tried)
  | .seq a b =>
    match g.run spaced limit a s place tried with
    | (none, tried) => (none, tried)
    | (some m, tried) =>
      -- blanks belong to the phrase even where the second part takes nothing
      let m := m.skip (g.gap spaced m.rest)
      let (n, tried) :=
        if h : place < m.stop then
          have := m.length_lt h
          g.run spaced g.top b m.rest m.stop tried
        else
          have := m.length_add
          have := m.le
          have : m.rest.length = s.length := by omega
          g.run spaced limit b m.rest m.stop tried
      (n.map m.append, tried)
  | .choice a b =>
    match g.run spaced limit a s place tried with
    | (some m, tried) => (some m, tried)
    | (none, tried) => g.run spaced limit b s place tried
  | .optional a =>
    match g.run spaced limit a s place tried with
    | (some m, tried) => (some m, tried)
    | (none, tried) => (some (.nothing s place), tried)
  | .many a =>
    match g.run spaced limit a s place tried with
    | (none, tried) => (some (.nothing s place), tried)
    | (some m, tried) =>
      let next := m.skip (g.gap spaced m.rest)
      if h : place < next.stop then
        have := next.length_lt h
        match g.run spaced g.top (.many a) next.rest next.stop tried with
        | (some more, tried) =>
          -- blanks behind the last repetition are given back
          (some (if next.stop < more.stop then next.append more else m), tried)
        | (none, tried) => (some m, tried)
      else (some m, tried)
  | .absent a =>
    -- what fails while looking ahead explains nothing
    match (g.run spaced limit a s place tried).1 with
    | some _ => (none, tried)
    | none => (some (.nothing s place), tried)
termination_by (s.length, limit, sizeOf p)
decreasing_by
  all_goals simp only [Prod.lex_def]
  all_goals simp +zetaDelta at *
  all_goals omega

/-- Matches a symbol that is to take a whole text. The answer is its node, or the attempts that
explain why there is none. -/
def Language.parse (g : Language σ) (symbol : σ) (source : List Char) :
    Except (Attempts σ) (Node σ) :=
  match g.run true g.top (.call symbol) source 0 .none with
  | (some ⟨_, _, [node], _, _⟩, _) => .ok node
  | (_, tried) => .error tried

/-- The same answer as it is reported, which is with the number of a byte for each offset. -/
def Language.report (g : Language σ) (symbol : σ) (source : List Char) :
    Except (Attempts σ) (Node σ) :=
  let starts := (charStarts 0 source).toArray
  let length := byteLength source
  let inBytes := fun n ↦ starts[n]?.getD length
  match g.parse symbol source with
  | .ok node => .ok (node.mapPlaces inBytes)
  | .error tried => .error { tried with place := inBytes tried.place }

end Snippet.Grammar
