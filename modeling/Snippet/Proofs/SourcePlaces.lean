import Snippet.Proofs.Comments
import Snippet.Proofs.PhraseParts
import Snippet.Proofs.TreeDepth

/-!
# Where the pieces of a script stand

A program that is read from a source text consists of pieces: its statements and expressions and the
names in them. Each of them stands in the text, and the parts of a piece stand inside it. Where a
name stands, the text has exactly that name (`Piece.Placed`). What keeps a text from being read is
complained about at a place in the text as well (`lands_parse`).

A span that is put together of two others holds both; parentheses leave no node, but the node around
them does. So the building of the tree is followed from the outside: everything that is built of the
nodes in a span lies in that span, and so does every complaint (`Lands`).
-/

namespace Snippet

/-! ### Spans -/

/-- A span that does not end before its start and lies inside another one. -/
structure Span.Inside (a b : Span) : Prop where
  start_le : b.start ≤ a.start
  le : a.start ≤ a.stop
  stop_le : a.stop ≤ b.stop

namespace Span.Inside

variable {a b c : Span}

theorem refl (h : a.start ≤ a.stop) : a.Inside a :=
  ⟨Nat.le_refl _, h, Nat.le_refl _⟩

theorem trans (h : a.Inside b) (h' : b.Inside c) : a.Inside c :=
  ⟨Nat.le_trans h'.start_le h.start_le, h.le, Nat.le_trans h.stop_le h'.stop_le⟩

/-- Two spans inside another one are joined inside it. -/
theorem join (ha : a.Inside c) (hb : b.Inside c) : (a.join b).Inside c where
  start_le := Nat.le_min.2 ⟨ha.start_le, hb.start_le⟩
  le := Nat.le_trans (Nat.min_le_left ..) (Nat.le_trans ha.le (Nat.le_max_left ..))
  stop_le := Nat.max_le.2 ⟨ha.stop_le, hb.stop_le⟩

theorem join_left (h : a.start ≤ a.stop) : a.Inside (a.join b) :=
  ⟨Nat.min_le_left .., h, Nat.le_max_left ..⟩

theorem join_right (h : b.start ≤ b.stop) : b.Inside (a.join b) :=
  ⟨Nat.min_le_right .., h, Nat.le_max_right ..⟩

end Span.Inside

/-- The span of a whole text. -/
def sourceSpan (source : String) : Span :=
  ⟨0, source.length⟩

/-- A span in the text starts and ends where characters do. -/
theorem byteRange?_location {source : String} {span : Span} (h : span.Inside (sourceSpan source))
    (hlt : span.start < span.stop) :
    span.location.byteRange? source.toList =
      some (byteAt source.toList span.start, byteAt source.toList span.stop) := by
  have hstart : span.start < source.toList.length := by
    rw [String.length_toList]
    exact Nat.lt_of_lt_of_le hlt h.stop_le
  rw [Span.location, Location.range, Nat.max_eq_right h.le, Location.byteRange?,
    if_neg (Nat.ne_of_lt hlt), getElem?_charStarts_of_lt hstart]
  rfl

theorem byteRange?_location_of_empty {source : List Char} {span : Span}
    (h : span.start = span.stop) : span.location.byteRange? source = none := by
  rw [Span.location, Location.range, h, Nat.max_self]
  exact if_pos rfl

/-- A span in the text is shown by the characters in it. -/
theorem excerpt?_location {source : String} {span : Span} (h : span.Inside (sourceSpan source))
    (hlt : span.start < span.stop) :
    span.location.excerpt? source =
      some (String.ofList ((source.toList.drop span.start).take (span.stop - span.start))) := by
  rw [Location.excerpt?, byteRange?_location h hlt, Option.bind_eq_bind, Option.bind_some]
  dsimp only
  rw [slice?_byteAt h.le]
  rfl

/-- A location that is a range of the text and shows exactly the characters there, or nothing where
the range is empty. The text can be cut where it has to be. -/
structure Location.Shown (source : String) (location : Location) : Prop where
  range : ∃ start stop, location = .inSource start stop ∧ start ≤ stop ∧ stop ≤ source.length ∧
    ∃ before chars behind : String, source = before ++ chars ++ behind ∧
      before.length = start ∧ chars.length = stop - start ∧
      location.excerpt? source = if start < stop then some chars else none
  cut : ∀ first last, location.byteRange? source.toList = some (first, last) →
    (slice? first last source.toList).isSome = true

theorem shown_location {source : String} {span : Span} (h : span.Inside (sourceSpan source)) :
    span.location.Shown source := by
  have hle := h.le
  have hstop : span.stop ≤ source.toList.length := by
    rw [String.length_toList]
    exact h.stop_le
  have hlocation : span.location = .inSource span.start span.stop := by
    rw [Span.location, Location.range, Nat.max_eq_right hle]
  refine ⟨⟨span.start, span.stop, hlocation, hle, h.stop_le,
    .ofList (source.toList.take span.start),
    .ofList ((source.toList.drop span.start).take (span.stop - span.start)),
    .ofList (source.toList.drop span.stop), ?_, ?_, ?_, ?_⟩, fun first last hrange ↦ ?_⟩
  · rw [← String.toList_inj]
    have hrest : source.toList.drop span.stop =
        (source.toList.drop span.start).drop (span.stop - span.start) := by
      rw [List.drop_drop, Nat.add_sub_cancel' hle]
    simp only [String.toList_append, String.toList_ofList]
    rw [hrest, List.append_assoc, List.take_append_drop, List.take_append_drop]
  · rw [String.length_ofList, List.length_take]
    omega
  · rw [String.length_ofList, List.length_take, List.length_drop]
    omega
  · split
    · next hlt => exact excerpt?_location h hlt
    · next hlt =>
      rw [Location.excerpt?, byteRange?_location_of_empty (Nat.le_antisymm hle (Nat.not_lt.1 hlt))]
      rfl
  · rcases Nat.lt_or_eq_of_le hle with hlt | heq
    · rw [byteRange?_location h hlt] at hrange
      cases hrange
      rw [slice?_byteAt hle]
      rfl
    · cases hrange.symm.trans (byteRange?_location_of_empty heq)

namespace Script

open Grammar

/-! ### Pieces -/

/-- A piece of a program. -/
inductive Piece where
  | expr (e : Expr)
  | stmt (s : Stmt)
  | ident (i : Ident)

/-- The names that stand in an expression, outside of the expressions in it. -/
def Expr.idents : Expr → List Ident
  | .member _ _ field => [field]
  | _ => []

/-- The name of a step of a path. -/
def Accessor.idents : Accessor → List Ident
  | .index _ => []
  | .member field => [field]

/-- The names that stand in a statement, outside of the expressions and statements in it. -/
def Stmt.idents : Stmt → List Ident
  | .declare _ _ name _ => [name]
  | .assign _ root path _ _ => root :: path.flatMap Accessor.idents
  | .forEach _ _ binding _ _ => [binding]
  | _ => []

namespace Piece

/-- Where a piece stands. -/
def span : Piece → Span
  | expr e => e.span
  | stmt s => s.span
  | ident i => i.span

/-- The pieces directly inside a piece. -/
def children : Piece → List Piece
  | expr e => (e.leftOperand?.toList ++ e.others).map expr ++ e.idents.map ident
  | stmt s => s.idents.map ident ++ s.exprs.map expr ++ s.parts.map stmt
  | ident _ => []

/-- The name that a piece is. -/
def name? : Piece → Option String
  | expr (.name _ name) => some name
  | ident i => some i.name
  | _ => none

/-- A piece that stands where it should. -/
structure Placed (source : String) (piece : Piece) : Prop where
  inSource : piece.span.Inside (sourceSpan source)
  children : ∀ child ∈ piece.children, child.span.Inside piece.span
  /-- A name is what the text has at its place. -/
  name : ∀ name ∈ piece.name?, piece.span.location.excerpt? source = some name

/-- A piece that stands where it should with everything in it. -/
inductive Sound (source : String) : Piece → Prop
  | mk {piece : Piece} (placed : piece.Placed source)
      (children : ∀ child ∈ piece.children, Sound source child) : Sound source piece

section Built

variable {source : String} {outer inner : Span} {piece : Piece}

theorem Sound.placed (h : piece.Sound source) : piece.Placed source := by
  cases h with
  | mk placed _ => exact placed

theorem Sound.child {child : Piece} (h : piece.Sound source) (hchild : child ∈ piece.children) :
    child.Sound source := by
  cases h with
  | mk _ children => exact children child hchild

/-- A piece that stands where it should inside a span. -/
structure Built (source : String) (outer : Span) (piece : Piece) : Prop where
  sound : piece.Sound source
  inside : piece.span.Inside outer

theorem Built.mono (h : piece.Built source inner) (hinner : inner.Inside outer) :
    piece.Built source outer :=
  ⟨h.sound, h.inside.trans hinner⟩

/-- A piece that is no name is built of its parts. -/
theorem Built.of_children (piece : Piece) (hspan : piece.span.Inside (sourceSpan source))
    (hname : piece.name? = none)
    (hchildren : ∀ child ∈ piece.children, child.Built source piece.span) :
    piece.Built source piece.span where
  sound := .mk ⟨hspan, fun child hchild ↦ (hchildren child hchild).inside,
    fun name h ↦ by rw [hname] at h; cases h⟩ fun child hchild ↦ (hchildren child hchild).sound
  inside := .refl hspan.le

/-- So is one that stands somewhere inside a span. -/
theorem Built.of_inside (piece : Piece) (hinside : piece.span.Inside outer)
    (houter : outer.Inside (sourceSpan source)) (hname : piece.name? = none)
    (hchildren : ∀ child ∈ piece.children, child.Built source piece.span) :
    piece.Built source outer :=
  (Built.of_children piece (hinside.trans houter) hname hchildren).mono hinside

/-- A name without parts is built of its characters. -/
theorem Built.of_name (piece : Piece) (hspan : piece.span.Inside (sourceSpan source))
    (hname : ∀ name ∈ piece.name?, piece.span.location.excerpt? source = some name)
    (hchildren : piece.children = []) : piece.Built source piece.span where
  sound := by
    refine .mk ⟨hspan, ?_, hname⟩ ?_
    · simp [hchildren]
    · simp [hchildren]
  inside := .refl hspan.le

end Built

end Piece

/-- The pieces of a program. -/
inductive Program.Has (p : Program) : Piece → Prop
  | statement {s} (h : s ∈ p.statements) : Has p (.stmt s)
  | tail {e} (h : e ∈ p.tail) : Has p (.expr e)
  | child {piece child : Piece} (h : Has p piece) (hchild : child ∈ piece.children) : Has p child

/-! ### Nodes -/

section Nodes

variable {source : String} {node : Node Symbol}

theorem name_pos {s : List Char} {n : Nat} (h : Lexeme.name s = some n) : 0 < n := by
  simp only [Lexeme.name] at h
  split at h
  · cases h
  · next hword =>
    split at h
    · cases h
    · cases h
      rw [hword]
      exact Nat.succ_pos _

theorem inside_of_stands (h : node.Stands language source.toList) :
    (nodeSpan node).Inside (sourceSpan source) where
  start_le := Nat.zero_le _
  le := h.start_le
  stop_le := by
    show node.stop ≤ source.length
    rw [← String.length_toList]
    exact h.stop_le

/-- A node that stands in the text inside a span. -/
structure NodeIn (source : String) (outer : Span) (node : Node Symbol) : Prop where
  stands : node.Stands language source.toList
  inside : (nodeSpan node).Inside outer

theorem nodeIn_part (h : node.Stands language source.toList) :
    ∀ part ∈ node.parts, NodeIn source (nodeSpan node) part := fun _ hpart ↦
  ⟨h.part hpart, (h.part_inside hpart).1, (h.part hpart).start_le, (h.part_inside hpart).2⟩

theorem NodeIn.part {outer : Span} {part : Node Symbol} (h : NodeIn source outer node)
    (hpart : part ∈ node.parts) : NodeIn source outer part :=
  ⟨h.stands.part hpart, (nodeIn_part h.stands part hpart).inside.trans h.inside⟩

/-- A name is what the text has at its place. -/
theorem excerpt?_of_ident (h : node.Stands language source.toList)
    (hsymbol : node.symbol = .ident) :
    (nodeSpan node).location.excerpt? source = some (nodeText node) := by
  obtain ⟨htext, hlexeme⟩ := h.text_eq
    (show language.rule node.symbol = .token Lexeme.name by rw [hsymbol]; rfl)
  have hlt : (nodeSpan node).start < (nodeSpan node).stop :=
    Nat.lt_of_sub_pos (name_pos hlexeme)
  rw [excerpt?_location (inside_of_stands h) hlt, nodeText, htext]
  rfl

theorem built_identOf (h : node.Stands language source.toList) (hsymbol : node.symbol = .ident) :
    (Piece.ident (identOf node)).Built source (nodeSpan node) := by
  refine Piece.Built.of_name (.ident (identOf node)) (inside_of_stands h) ?_ rfl
  intro name hname
  cases hname
  exact excerpt?_of_ident h hsymbol

/-- What is accessed as a member is a name. -/
theorem symbol_of_member {span : Nat × Nat} {text : List Char} {field : Node Symbol}
    (h : (Node.mk .member span text [field]).Stands language source.toList) :
    field.symbol = .ident := by
  have hparts : [field.symbol] = [.ident] := parts_of_stands h
  exact List.singleton_inj.1 hparts

/-- What is assigned to starts with a name. -/
theorem symbol_of_assignment {span : Nat × Nat} {text : List Char}
    {root target op value ending : Node Symbol} {path : List (Node Symbol)}
    (h : (Node.mk .assignment span text [target, op, value, ending]).Stands language source.toList)
    (hparts : target.parts = root :: path) : root.symbol = .ident := by
  have hsymbols : [target.symbol, op.symbol, value.symbol, ending.symbol] =
      [.assignTarget, .assignOp, .expr, .semi] := parts_of_stands h
  have htarget := parts_of_stands (h.part (List.mem_cons_self ..))
  rw [(List.cons.inj hsymbols).1, hparts] at htarget
  obtain ⟨_, hcons, -⟩ := htarget
  exact (List.cons.inj hcons).1

/-- What is declared is a name. -/
theorem symbol_of_declaration {span : Nat × Nat} {text : List Char}
    {type name : Node Symbol} {rest : List (Node Symbol)}
    (h : (Node.mk .declaration span text (type :: name :: rest)).Stands language source.toList) :
    name.symbol = .ident := by
  rcases parts_of_stands h with hparts | hparts
  · exact (List.cons.inj (List.cons.inj hparts).2).1
  · exact (List.cons.inj (List.cons.inj hparts).2).1

/-- What a loop binds is a name. -/
theorem symbol_of_foreach {span : Nat × Nat} {text : List Char}
    {keyword type binding : Node Symbol} {rest : List (Node Symbol)}
    (h : (Node.mk .foreachStmt span text (keyword :: type :: binding :: rest)).Stands language
      source.toList) : binding.symbol = .ident := by
  obtain ⟨_, -, hparts⟩ := parts_of_stands h
  exact (List.cons.inj (List.cons.inj (List.cons.inj hparts).2).2).1

end Nodes

/-! ### Landing -/

section Lands

variable {α β : Type} {outer inner : Span} {P : α → Prop} {Q : β → Prop}

/-- The answer has the property `P`, or it is a complaint about a place in a span. -/
def Lands (outer : Span) (P : α → Prop) : Except Complaint α → Prop
  | .ok a => P a
  | .error c => c.span.Inside outer

theorem lands_pure {a : α} (h : P a) : Lands outer P (pure a) :=
  h

theorem lands_throw {c : Complaint} (h : c.span.Inside outer) :
    Lands outer P (throw c : Except Complaint α) :=
  h

theorem Lands.bind {x : Except Complaint α} {k : α → Except Complaint β} (h : Lands outer P x)
    (hk : ∀ a, P a → Lands outer Q (k a)) : Lands outer Q (x >>= k) := by
  cases x with
  | ok a => exact hk a h
  | error c => exact h

/-- What lands in a span lands in a wider one. -/
theorem Lands.widen {x : Except Complaint α} {P' : α → Prop} (h : Lands inner P x)
    (hinner : inner.Inside outer) (hP : ∀ a, P a → P' a) : Lands outer P' x := by
  cases x with
  | ok a => exact hP a h
  | error c => exact h.trans hinner

theorem lands_checkDepth (depth : Nat) (h : outer.start ≤ outer.stop) :
    Lands outer (fun _ ↦ True) (checkDepth depth outer) := by
  unfold checkDepth
  split
  · exact Span.Inside.refl h
  · exact trivial

/-- An escape that is not known stands in the string. -/
theorem lands_unescape {place : Nat} {body : List Char} (hstart : outer.start ≤ place)
    (hstop : body ≠ [] → place + body.length ≤ outer.stop) :
    Lands outer (fun _ ↦ True) (unescape place body) := by
  have hmap {f : List Char → List Char} {x : Except Complaint (List Char)}
      (h : Lands outer (fun _ ↦ True) x) : Lands outer (fun _ ↦ True) (x.map f) := by
    cases x with
    | ok _ => exact trivial
    | error _ => exact h
  fun_induction unescape place body with
  | case1 => exact trivial
  | case2 place c rest e _ ih =>
    refine hmap (ih (by omega) fun _ ↦ ?_)
    have := hstop (List.cons_ne_nil _ _)
    simp only [List.length_cons] at this
    omega
  | case3 place c rest _ =>
    have := hstop (List.cons_ne_nil _ _)
    simp only [List.length_cons] at this
    exact ⟨hstart, Nat.le_add_right .., by show place + 2 ≤ _; omega⟩
  | case4 => exact trivial
  | case5 place c rest _ _ ih =>
    refine hmap (ih (by omega) fun _ ↦ ?_)
    have := hstop (List.cons_ne_nil _ _)
    simp only [List.length_cons] at this
    omega

end Lands

/-! ### Building expressions -/

section Building

variable {source : String} {outer : Span}

/-- An expression that stands where it should inside a span. -/
abbrev Expr.Built (source : String) (outer : Span) (e : Expr) : Prop :=
  (Piece.expr e).Built source outer

/-- A statement that stands where it should inside a span. -/
abbrev Stmt.Built (source : String) (outer : Span) (s : Stmt) : Prop :=
  (Piece.stmt s).Built source outer

/-- An operator in front of an operand stands where both do. -/
theorem built_applyUnary {ops : List (UnaryOp × Span)} {e : Expr}
    (hops : ∀ op ∈ ops, op.2.Inside outer) (hsource : outer.Inside (sourceSpan source))
    (he : e.Built source outer) : (applyUnary ops e).Built source outer := by
  induction ops with
  | nil => exact he
  | cons op ops ih =>
    obtain ⟨hop, hops⟩ := List.forall_mem_cons.1 hops
    have hinner := ih hops
    refine Piece.Built.of_inside (.expr _) (hop.join hinner.inside) hsource rfl
      (List.forall_mem_singleton.2 ?_)
    exact ⟨hinner.sound, .join_right hinner.inside.le⟩

/-- The most negative integer is a minus and an operand. -/
theorem mostNegative?_eq_some {minus : Option (UnaryOp × Span)} {operand : Node Symbol} {e : Expr}
    (h : mostNegative? minus operand = some e) :
    ∃ op ∈ minus, e = .literal (op.2.join (nodeSpan operand)) (.int Int64.minValue) := by
  unfold mostNegative? at h
  split at h
  · split at h
    · split at h
      · cases h
        exact ⟨_, rfl, rfl⟩
      · cases h
    · cases h
  · cases h

/-- The text of a string stands between its quotes. -/
theorem lands_body {start stop : Nat} {text body : List Char} {parts : List (Node Symbol)}
    (h : (Node.mk .stringLit (start, stop) text parts).Stands language source.toList)
    (hbody : quotedBody? text = some body) :
    Lands ⟨start, stop⟩ (fun _ ↦ True) (unescape (start + 1) body) := by
  have hstop : stop ≤ source.toList.length := h.stop_le
  have htext : text = (source.toList.drop start).take (stop - start) :=
    (h.text_eq (show language.rule .stringLit = .token Lexeme.quoted from rfl)).1
  have hlength := congrArg List.length (htext.symm.trans (eq_of_quotedBody? hbody))
  rw [List.length_take, List.length_drop, List.length_cons, List.length_append] at hlength
  refine lands_unescape (Nat.le_succ _) fun _ ↦ ?_
  show start + 1 + body.length ≤ stop
  omega

mutual

theorem lands_exprOf {outer : Span} (depth : Nat) (node : Node Symbol) :
    NodeIn source outer node →
      Lands outer (Expr.Built source outer) (exprOf depth node) := by
  obtain ⟨symbol, ⟨start, stop⟩, text, parts⟩ := node
  intro h
  -- what the node stands for is built in the span of the node
  refine Lands.widen (P := Expr.Built source ⟨start, stop⟩) ?_ h.inside fun _ he ↦ he.mono h.inside
  have hspan : Span.Inside ⟨start, stop⟩ (sourceSpan source) := inside_of_stands h.stands
  have hself : Span.Inside ⟨start, stop⟩ ⟨start, stop⟩ := .refl hspan.le
  have hparts : ∀ part ∈ parts, NodeIn source ⟨start, stop⟩ part := nodeIn_part h.stands
  rw [exprOf.eq_def]
  dsimp only
  refine (lands_checkDepth depth hspan.le).bind fun _ _ ↦ ?_
  have hplaced {e : Expr} (hplace : e.span = ⟨start, stop⟩) (hname : (Piece.expr e).name? = none)
      (hchildren : ∀ child ∈ (Piece.expr e).children, child.Built source ⟨start, stop⟩) :
      Lands ⟨start, stop⟩ (Expr.Built source ⟨start, stop⟩) (pure e) := by
    refine lands_pure ?_
    rw [← hplace] at hspan hchildren ⊢
    exact Piece.Built.of_children (.expr e) hspan hname hchildren
  split
  case h_1 head => exact lands_exprOf (depth + 1) head (hparts _ (by simp))
  case h_2 head yes no =>
    refine (lands_exprOf (depth + 1) head (hparts _ (by simp))).bind fun c hc ↦ ?_
    refine (lands_exprOf (depth + 1) yes (hparts _ (by simp))).bind fun y hy ↦ ?_
    refine (lands_exprOf (depth + 1) no (hparts _ (by simp))).bind fun n hn ↦ ?_
    exact hplaced rfl rfl (by simpa [Piece.children, Expr.others, Expr.leftOperand?, Expr.idents]
      using ⟨hc, hy, hn⟩)
  case h_9 => exact lands_unaryOf hspan depth [] (List.forall_mem_nil _) parts hparts
  case h_10 head rest =>
    obtain ⟨hhead, hrest⟩ := List.forall_mem_cons.1 hparts
    refine (lands_exprOf (depth + 1) head hhead).bind fun e he ↦ ?_
    exact lands_suffixesOf hspan depth e he rest hrest
  case h_11 | h_12 =>
    split
    · exact hplaced rfl rfl (List.forall_mem_nil _)
    · exact lands_throw hself
  case h_13 =>
    split
    · next hbody =>
      exact (lands_body h.stands hbody).bind fun _ _ ↦ hplaced rfl rfl (List.forall_mem_nil _)
    · exact lands_throw hself
  case h_16 =>
    refine lands_pure (Piece.Built.of_name (.expr (.name ⟨start, stop⟩ _)) hspan ?_ rfl)
    intro name hname
    cases hname
    exact excerpt?_of_ident h.stands rfl
  case h_17 =>
    refine (lands_exprsOf (depth + 1) parts hparts).bind fun es hes ↦ hplaced rfl rfl ?_
    simpa [Piece.children, Expr.others, Expr.leftOperand?, Expr.idents] using hes
  case h_18 =>
    refine (lands_entriesOf (depth + 1) parts hparts).bind fun es hes ↦ hplaced rfl rfl ?_
    simp only [Piece.children, Expr.others, Expr.leftOperand?, Expr.idents, Option.toList_none,
      List.nil_append, List.map_nil, List.append_nil, List.forall_mem_map, List.forall_mem_flatMap]
    intro entry hentry e he
    simp only [List.mem_cons, List.not_mem_nil, or_false] at he
    rcases he with rfl | rfl
    · exact (hes entry hentry).1
    · exact (hes entry hentry).2
  case h_14 | h_15 => exact hplaced rfl rfl (List.forall_mem_nil _)
  case h_3 head rest | h_4 head rest | h_5 head rest | h_6 head rest | h_7 head rest
      | h_8 head rest =>
    obtain ⟨hhead, hrest⟩ := List.forall_mem_cons.1 hparts
    refine (lands_exprOf (depth + 1) head hhead).bind fun e he ↦ ?_
    exact lands_chainOf hspan depth e he rest hrest
  case h_19 => exact lands_throw hself
termination_by sizeOf node

theorem lands_exprsOf {outer : Span} (depth : Nat) (nodes : List (Node Symbol))
    (h : ∀ node ∈ nodes, NodeIn source outer node) :
    Lands outer (fun es ↦ ∀ e ∈ es, e.Built source outer) (exprsOf depth nodes) := by
  cases nodes with
  | nil => exact lands_pure (List.forall_mem_nil _)
  | cons node rest =>
    obtain ⟨hnode, hrest⟩ := List.forall_mem_cons.1 h
    rw [exprsOf]
    refine (lands_exprOf depth node hnode).bind fun e he ↦ ?_
    exact (lands_exprsOf depth rest hrest).bind fun es hes ↦
      lands_pure (List.forall_mem_cons.2 ⟨he, hes⟩)
termination_by sizeOf nodes

theorem lands_entriesOf {outer : Span} (depth : Nat) (nodes : List (Node Symbol))
    (h : ∀ node ∈ nodes, NodeIn source outer node) :
    Lands outer
      (fun es ↦ ∀ entry ∈ es, entry.1.Built source outer ∧ entry.2.Built source outer)
      (entriesOf depth nodes) := by
  match nodes with
  | [] => exact lands_pure (List.forall_mem_nil _)
  | .mk symbol span text [key, value] :: rest =>
    obtain ⟨hnode, hrest⟩ := List.forall_mem_cons.1 h
    have hkey : NodeIn source outer key := hnode.part (by simp [Node.parts])
    have hvalue : NodeIn source outer value := hnode.part (by simp [Node.parts])
    rw [entriesOf]
    refine (lands_exprOf depth key hkey).bind fun k hk ↦ ?_
    refine (lands_exprOf depth value hvalue).bind fun v hv ↦ ?_
    exact (lands_entriesOf depth rest hrest).bind fun es hes ↦
      lands_pure (List.forall_mem_cons.2 ⟨⟨hk, hv⟩, hes⟩)
  | .mk _ _ _ [] :: _ | .mk _ _ _ [_] :: _ | .mk _ _ _ (_ :: _ :: _ :: _) :: _ =>
    exact lands_throw (List.forall_mem_cons.1 h).1.inside
termination_by sizeOf nodes

theorem lands_chainOf {outer : Span} (hspan : outer.Inside (sourceSpan source)) (depth : Nat)
    (lhs : Expr) (hlhs : lhs.Built source outer) (nodes : List (Node Symbol))
    (h : ∀ node ∈ nodes, NodeIn source outer node) :
    Lands outer (Expr.Built source outer) (chainOf outer depth lhs nodes) := by
  match nodes with
  | [] => exact lands_pure hlhs
  | [_] => exact lands_throw (.refl hspan.le)
  | op :: operand :: rest =>
    obtain ⟨hop, h⟩ := List.forall_mem_cons.1 h
    obtain ⟨hoperand, hrest⟩ := List.forall_mem_cons.1 h
    rw [chainOf]
    refine (lands_checkDepth _ hspan.le).bind fun _ _ ↦ ?_
    split
    · exact lands_throw hop.inside
    · next op _ =>
      refine (lands_exprOf (depth + 2) operand hoperand).bind fun rhs hrhs ↦ ?_
      have hlink : (Expr.binary (lhs.span.join rhs.span) op lhs rhs).Built source outer := by
        refine Piece.Built.of_inside (.expr _) (hlhs.inside.join hrhs.inside) hspan rfl ?_
        simpa [Piece.children, Expr.others, Expr.leftOperand?, Expr.idents] using
          And.intro ⟨hlhs.sound, .join_left hlhs.inside.le⟩ ⟨hrhs.sound, .join_right hrhs.inside.le⟩
      exact lands_chainOf hspan (depth + 1) _ hlink rest hrest
termination_by sizeOf nodes

theorem lands_unaryOf {outer : Span} (hspan : outer.Inside (sourceSpan source)) (depth : Nat)
    (ops : List (UnaryOp × Span)) (hops : ∀ op ∈ ops, op.2.Inside outer)
    (nodes : List (Node Symbol)) (h : ∀ node ∈ nodes, NodeIn source outer node) :
    Lands outer (Expr.Built source outer) (unaryOf outer depth ops nodes) := by
  match nodes with
  | [] => exact lands_throw (.refl hspan.le)
  | [operand] =>
    have hoperand := h operand (by simp)
    rw [unaryOf]
    split
    · next literal hliteral =>
      refine (lands_checkDepth _ hspan.le).bind fun _ _ ↦ lands_pure ?_
      obtain ⟨op, hop, rfl⟩ := mostNegative?_eq_some hliteral
      refine built_applyUnary (fun op hop ↦ hops op (List.dropLast_subset _ hop)) hspan ?_
      have hjoin := (hops op (List.mem_of_getLast? hop)).join hoperand.inside
      exact Piece.Built.of_inside (.expr _) hjoin hspan rfl (List.forall_mem_nil _)
    · refine (lands_exprOf _ operand hoperand).bind fun e he ↦ ?_
      exact (lands_checkDepth _ hspan.le).bind fun _ _ ↦ lands_pure (built_applyUnary hops hspan he)
  | op :: op' :: rest =>
    obtain ⟨hop, hrest⟩ := List.forall_mem_cons.1 h
    rw [unaryOf]
    · refine lands_unaryOf hspan depth _ ?_ (op' :: rest) hrest
      exact List.forall_mem_append.2 ⟨hops, List.forall_mem_singleton.2 hop.inside⟩
    · exact List.cons_ne_nil _ _
termination_by sizeOf nodes

theorem lands_suffixesOf {outer : Span} (hspan : outer.Inside (sourceSpan source)) (depth : Nat)
    (target : Expr) (ht : target.Built source outer) (nodes : List (Node Symbol))
    (h : ∀ node ∈ nodes, NodeIn source outer node) :
    Lands outer (Expr.Built source outer) (suffixesOf outer depth target nodes) := by
  match nodes with
  | [] => exact lands_pure ht
  | .mk symbol (start, stop) text parts :: rest =>
    obtain ⟨hnode, hrest⟩ := List.forall_mem_cons.1 h
    have hparts : ∀ part ∈ parts, NodeIn source ⟨start, stop⟩ part := nodeIn_part hnode.stands
    have hjoin : (target.span.join ⟨start, stop⟩).Inside outer := ht.inside.join hnode.inside
    rw [suffixesOf.eq_def]
    dsimp only
    refine (lands_checkDepth _ hspan.le).bind fun _ _ ↦ ?_
    have hnext {e : Expr} (hplace : e.span = target.span.join ⟨start, stop⟩)
        (hname : (Piece.expr e).name? = none)
        (hchildren : ∀ child ∈ (Piece.expr e).children,
          child = .expr target ∨ child.Built source ⟨start, stop⟩) :
        Lands outer (Expr.Built source outer) (suffixesOf outer (depth + 1) e rest) := by
      refine lands_suffixesOf hspan (depth + 1) e ?_ rest hrest
      rw [← hplace] at hjoin
      refine Piece.Built.of_inside (.expr e) hjoin hspan hname fun child hchild ↦ ?_
      show child.Built source e.span
      rw [hplace]
      rcases hchildren child hchild with rfl | hchild
      · exact ⟨ht.sound, .join_left ht.inside.le⟩
      · exact hchild.mono (.join_right hnode.inside.le)
    split
    · refine Lands.bind ((lands_exprsOf (depth + 2) parts hparts).widen hnode.inside fun _ ↦ id)
        fun as has ↦ hnext rfl rfl ?_
      simpa [Piece.children, Expr.others, Expr.leftOperand?, Expr.idents] using
        fun e he ↦ Or.inr (has e he)
    · next index =>
      have hindex := hparts index (by simp)
      refine Lands.bind ((lands_exprOf (depth + 2) index hindex).widen hnode.inside fun _ ↦ id)
        fun i hi ↦ hnext rfl rfl ?_
      simpa [Piece.children, Expr.others, Expr.leftOperand?, Expr.idents] using Or.inr hi
    · next field =>
      have hfield := hparts field (by simp)
      have hident := built_identOf hfield.stands (symbol_of_member hnode.stands)
      refine hnext rfl rfl ?_
      simpa [Piece.children, Expr.others, Expr.leftOperand?, Expr.idents] using
        (hident.mono hfield.inside)
    · exact lands_throw hnode.inside
termination_by sizeOf nodes

end

/-! ### Building statements -/

/-- Steps of a path whose names and expressions stand where they should inside a span. -/
structure PathBuilt (source : String) (outer : Span) (path : List Accessor) : Prop where
  idents : ∀ i ∈ path.flatMap Accessor.idents, (Piece.ident i).Built source outer
  exprs : ∀ e ∈ path.flatMap Accessor.exprs, e.Built source outer

theorem lands_pathOf {outer : Span} (depth : Nat) (nodes : List (Node Symbol))
    (h : ∀ node ∈ nodes, NodeIn source outer node) :
    Lands outer (PathBuilt source outer) (pathOf depth nodes) := by
  induction nodes with
  | nil => exact lands_pure ⟨List.forall_mem_nil _, List.forall_mem_nil _⟩
  | cons node rest ih =>
    obtain ⟨hnode, hrest⟩ := List.forall_mem_cons.1 h
    rw [pathOf.eq_def]
    dsimp only
    have hstep {x : Except Complaint Accessor}
        (h : Lands outer (fun step ↦ PathBuilt source outer [step]) x) :
        Lands outer (PathBuilt source outer) (do return (← x) :: (← pathOf depth rest)) := by
      refine h.bind fun step hstep ↦ (ih hrest).bind fun path hpath ↦ lands_pure ?_
      rw [← List.singleton_append]
      refine ⟨?_, ?_⟩
      · rw [List.flatMap_append]
        exact List.forall_mem_append.2 ⟨hstep.idents, hpath.idents⟩
      · rw [List.flatMap_append]
        exact List.forall_mem_append.2 ⟨hstep.exprs, hpath.exprs⟩
    split
    · next index =>
      have hindex : NodeIn source outer index := hnode.part (List.mem_singleton.2 rfl)
      exact hstep ((lands_exprOf depth index hindex).bind fun i hi ↦
        lands_pure ⟨List.forall_mem_nil _, List.forall_mem_singleton.2 hi⟩)
    · next field =>
      have hfield : NodeIn source outer field := hnode.part (List.mem_singleton.2 rfl)
      have hident := built_identOf hfield.stands (symbol_of_member hnode.stands)
      exact hstep (lands_pure
        ⟨List.forall_mem_singleton.2 (hident.mono hfield.inside), List.forall_mem_nil _⟩)
    · exact hstep (lands_throw hnode.inside)

theorem lands_typeOf {outer : Span} {node : Node Symbol} (h : NodeIn source outer node) :
    Lands outer (fun _ ↦ True) (typeOf node) := by
  unfold typeOf
  split
  · exact trivial
  · exact h.inside

mutual

theorem lands_stmtOf {outer : Span} (depth : Nat) (node : Node Symbol) :
    NodeIn source outer node →
      Lands outer (Stmt.Built source outer) (stmtOf depth node) := by
  obtain ⟨symbol, ⟨start, stop⟩, text, parts⟩ := node
  intro h
  -- what the node stands for is built in the span of the node
  refine Lands.widen (P := Stmt.Built source ⟨start, stop⟩) ?_ h.inside fun _ hs ↦ hs.mono h.inside
  have hspan : Span.Inside ⟨start, stop⟩ (sourceSpan source) := inside_of_stands h.stands
  have hself : Span.Inside ⟨start, stop⟩ ⟨start, stop⟩ := .refl hspan.le
  have hparts : ∀ part ∈ parts, NodeIn source ⟨start, stop⟩ part := nodeIn_part h.stands
  rw [stmtOf.eq_def]
  dsimp only
  refine (lands_checkDepth depth hspan.le).bind fun _ _ ↦ ?_
  have hplaced {s : Stmt} (hplace : s.span = ⟨start, stop⟩)
      (hidents : ∀ i ∈ s.idents, (Piece.ident i).Built source ⟨start, stop⟩)
      (hexprs : ∀ e ∈ s.exprs, e.Built source ⟨start, stop⟩)
      (hstmts : ∀ s' ∈ s.parts, s'.Built source ⟨start, stop⟩) :
      Lands ⟨start, stop⟩ (Stmt.Built source ⟨start, stop⟩) (pure s) := by
    refine lands_pure ?_
    rw [← hplace] at hspan hidents hexprs hstmts ⊢
    refine Piece.Built.of_children (.stmt s) hspan rfl ?_
    simpa [Piece.children, or_imp, forall_and] using ⟨hidents, hexprs, hstmts⟩
  have hleaf {s : Stmt} (hplace : s.span = ⟨start, stop⟩) (hidents : s.idents = [])
      (hexprs : s.exprs = []) (hstmts : s.parts = []) :
      Lands ⟨start, stop⟩ (Stmt.Built source ⟨start, stop⟩) (pure s) :=
    hplaced hplace (by simp [hidents]) (by simp [hexprs]) (by simp [hstmts])
  have hexpr {e : Node Symbol} (he : e ∈ parts) (depth : Nat) :
      Lands ⟨start, stop⟩ (Expr.Built source ⟨start, stop⟩) (exprOf depth e) :=
    lands_exprOf depth e (hparts e he)
  have hname {name : Node Symbol} (hmem : name ∈ parts) (hsymbol : name.symbol = .ident) :
      (Piece.ident (identOf name)).Built source ⟨start, stop⟩ :=
    (built_identOf (hparts name hmem).stands hsymbol).mono (hparts name hmem).inside
  split
  case h_1 =>
    exact (lands_stmtsOf (depth + 1) parts hparts).bind fun body hbody ↦
      hplaced rfl (List.forall_mem_nil _) (List.forall_mem_nil _) hbody
  case h_2 cond yes =>
    refine (hexpr (by simp) _).bind fun c hc ↦ ?_
    exact (lands_stmtOf (depth + 1) yes (hparts _ (by simp))).bind fun y hy ↦
      hplaced rfl (List.forall_mem_nil _) (List.forall_mem_singleton.2 hc)
        (List.forall_mem_singleton.2 hy)
  case h_3 cond yes _ no =>
    refine (hexpr (by simp) _).bind fun c hc ↦ ?_
    refine (lands_stmtOf (depth + 1) yes (hparts _ (by simp))).bind fun y hy ↦ ?_
    exact (lands_stmtOf (depth + 1) no (hparts _ (by simp))).bind fun n hn ↦
      hplaced rfl (List.forall_mem_nil _) (List.forall_mem_singleton.2 hc)
        (List.forall_mem_cons.2 ⟨hy, List.forall_mem_singleton.2 hn⟩)
  case h_4 cond body =>
    refine (hexpr (by simp) _).bind fun c hc ↦ ?_
    exact (lands_stmtOf (depth + 1) body (hparts _ (by simp))).bind fun b hb ↦
      hplaced rfl (List.forall_mem_nil _) (List.forall_mem_singleton.2 hc)
        (List.forall_mem_singleton.2 hb)
  case h_5 type binding _ items body =>
    refine (lands_typeOf (hparts type (by simp))).bind fun _ _ ↦ ?_
    refine (hexpr (by simp) _).bind fun i hi ↦ ?_
    exact (lands_stmtOf (depth + 1) body (hparts _ (by simp))).bind fun b hb ↦
      hplaced rfl (List.forall_mem_singleton.2 (hname (by simp) (symbol_of_foreach h.stands)))
        (List.forall_mem_singleton.2 hi) (List.forall_mem_singleton.2 hb)
  case h_6 | h_9 | h_10 | h_11 => exact hleaf rfl rfl rfl rfl
  case h_7 value _ | h_8 value _ | h_15 value _ =>
    exact (hexpr (by simp) _).bind fun v hv ↦ hplaced rfl (List.forall_mem_nil _)
      (List.forall_mem_singleton.2 hv) (List.forall_mem_nil _)
  case h_12 type name _ =>
    exact (lands_typeOf (hparts type (by simp))).bind fun _ _ ↦
      hplaced rfl (List.forall_mem_singleton.2 (hname (by simp) (symbol_of_declaration h.stands)))
        (List.forall_mem_nil _) (List.forall_mem_nil _)
  case h_13 type name value _ =>
    refine (lands_typeOf (hparts type (by simp))).bind fun _ _ ↦ ?_
    exact (hexpr (by simp) _).bind fun v hv ↦
      hplaced rfl (List.forall_mem_singleton.2 (hname (by simp) (symbol_of_declaration h.stands)))
        (List.forall_mem_singleton.2 hv) (List.forall_mem_nil _)
  case h_14 symbol' span' text' root path op value _ =>
    have htarget := hparts (.mk symbol' span' text' (root :: path)) (by simp)
    have hroot := htarget.part (List.mem_cons_self ..)
    have hident := built_identOf hroot.stands (symbol_of_assignment h.stands rfl)
    refine (lands_pathOf (depth + 2) path fun part hmem ↦
      htarget.part (List.mem_cons_of_mem _ hmem)).bind fun path hpath ↦ ?_
    split
    · exact lands_throw (hparts op (by simp)).inside
    · exact (hexpr (by simp) _).bind fun v hv ↦
        hplaced rfl (List.forall_mem_cons.2 ⟨hident.mono hroot.inside, hpath.idents⟩)
          (List.forall_mem_append.2 ⟨hpath.exprs, List.forall_mem_singleton.2 hv⟩)
          (List.forall_mem_nil _)
  case h_16 => exact lands_throw hself
termination_by sizeOf node

theorem lands_stmtsOf {outer : Span} (depth : Nat) (nodes : List (Node Symbol))
    (h : ∀ node ∈ nodes, NodeIn source outer node) :
    Lands outer (fun ss ↦ ∀ s ∈ ss, s.Built source outer) (stmtsOf depth nodes) := by
  cases nodes with
  | nil => exact lands_pure (List.forall_mem_nil _)
  | cons node rest =>
    obtain ⟨hnode, hrest⟩ := List.forall_mem_cons.1 h
    rw [stmtsOf]
    refine (lands_stmtOf depth node hnode).bind fun s hs ↦ ?_
    exact (lands_stmtsOf depth rest hrest).bind fun ss hss ↦
      lands_pure (List.forall_mem_cons.2 ⟨hs, hss⟩)
termination_by sizeOf nodes

end

/-- A program whose pieces stand where they should inside a span. -/
structure Program.Built (source : String) (outer : Span) (p : Program) : Prop where
  statements : ∀ s ∈ p.statements, s.Built source outer
  tail : ∀ e ∈ p.tail, e.Built source outer

theorem lands_programOf {outer : Span} (nodes : List (Node Symbol))
    (h : ∀ node ∈ nodes, NodeIn source outer node) :
    Lands outer (Program.Built source outer) (programOf nodes) := by
  induction nodes with
  | nil => exact lands_pure ⟨List.forall_mem_nil _, nofun⟩
  | cons node rest ih =>
    obtain ⟨hnode, hrest⟩ := List.forall_mem_cons.1 h
    rw [programOf.eq_def]
    split
    · next heq => cases heq
    · next heq =>
      obtain ⟨-, rfl⟩ := List.cons.inj heq
      exact ih hrest
    · next value _ heq =>
      obtain ⟨rfl, rfl⟩ := List.cons.inj heq
      refine (lands_exprOf 0 value (hnode.part (List.mem_singleton.2 rfl))).bind fun v hv ↦ ?_
      exact (ih hrest).bind fun p hp ↦
        lands_pure ⟨hp.statements, fun e he ↦ Option.some.inj he ▸ hv⟩
    · next node _ _ _ heq =>
      obtain ⟨rfl, rfl⟩ := List.cons.inj heq
      refine (lands_stmtOf 0 _ hnode).bind fun s hs ↦ ?_
      exact (ih hrest).bind fun p hp ↦
        lands_pure ⟨List.forall_mem_cons.2 ⟨hs, hp.statements⟩, hp.tail⟩

end Building

/-! ### Parsing -/

/-- A bracket that is too much stands in the text. -/
theorem excessBracket?_lt {limit place depth found : Nat} {state : QuoteState} {s : List Char}
    (h : excessBracket? limit place depth state s = some found) : found < place + s.length := by
  induction s generalizing place depth state with
  | nil => cases h
  | cons c rest ih =>
    have hrest {depth' : Nat} {state' : QuoteState}
        (h : excessBracket? limit (place + 1) depth' state' rest = some found) :
        found < place + (c :: rest).length := by
      have := ih h
      rw [List.length_cons]
      omega
    rw [excessBracket?.eq_def] at h
    dsimp only at h
    split at h
    · exact hrest h
    · repeat' split at h
      all_goals exact hrest h
    · split at h
      · exact hrest h
      · split at h
        · split at h
          · cases h
            rw [List.length_cons]
            omega
          · exact hrest h
        · split at h
          · exact hrest h
          · exact hrest h

/-- What is read from a text stands in it as it should, and so does what keeps it from being
read. -/
theorem lands_parse (source : String) :
    Lands (sourceSpan source) (Program.Built source (sourceSpan source)) (parse source) := by
  cases hguard : checkNesting source.toList with
  | error c =>
    rw [parse_of_checkNesting hguard]
    rw [checkNesting] at hguard
    split at hguard
    · next place hplace =>
      cases hguard
      have hlt := excessBracket?_lt hplace
      rw [Nat.zero_add, String.length_toList] at hlt
      exact lands_throw ⟨Nat.zero_le _, Nat.le_succ _, hlt⟩
    · cases hguard
  | ok =>
    cases hparse : language.parse .program source.toList with
    | error tried =>
      have hle := language_bounded.place_le_of_parse hparse
      rw [String.length_toList] at hle
      rw [parse_of_attempts hguard hparse]
      exact lands_throw ⟨Nat.zero_le _, Nat.le_refl _, hle⟩
    | ok node =>
      have hstands := (language_bounded.stands_parse hparse).1
      rw [parse_of_node hguard hparse]
      exact lands_programOf _ fun part hpart ↦
        ⟨hstands.part hpart, inside_of_stands (hstands.part hpart)⟩

/-- Not only its statements and its tail but all pieces of the program stand where they should. -/
theorem Program.Built.placed {source : String} {outer : Span} {p : Program}
    (h : p.Built source outer) {piece : Piece} (hpiece : p.Has piece) : piece.Placed source := by
  suffices hsound : piece.Sound source from hsound.placed
  induction hpiece with
  | statement hs => exact (h.statements _ hs).sound
  | tail he => exact (h.tail _ he).sound
  | child _ hchild ih => exact ih.child hchild

end Script

end Snippet
