import Mathlib.Data.List.TakeWhile
import Snippet.Proofs.Lexemes
import Snippet.Proofs.NodePlaces
import Snippet.Proofs.StringBodies
import Snippet.Script.Parse

/-!
# The parts of phrases

Which parts the nodes of a script have. A pattern tells the symbols of the nodes that it finds
(`Pattern.Shape`), and for each phrase of the grammar these are told in a table (`Symbol.Parts`):
the rules that leave no node of their own are gone from it, and so are the fixed texts. A node that
stands in a text has the parts that the table says (`parts_of_stands`).

Tokens have no parts, but texts, and it is told what these are good for. Operators and words for
types are known to the tree (`exists_binaryOp`, `exists_assignOp`, `exists_declType`), a number with
a point denotes a double (`exists_float`), and a string has a body (`exists_body`).
-/

namespace Snippet.Grammar

variable {σ : Type} {p a b : Pattern σ} {symbol : σ} {symbols : List σ}

/-! ### Shapes -/

/-- All symbols that a pattern may find are of one kind. -/
def Pattern.callsIn (kind : σ → Bool) : Pattern σ → Bool
  | .text _ | .absent _ => true
  | .call symbol => kind symbol
  | .seq a b | .choice a b => a.callsIn kind && b.callsIn kind
  | .optional a | .many a => a.callsIn kind

theorem Pattern.Shape.kind_eq (kind : σ → Bool) (h : p.Shape symbols)
    (hp : p.callsIn kind = true) : ∀ symbol ∈ symbols, kind symbol = true := by
  induction p generalizing symbols with
  | text chars | absent body =>
    obtain rfl := h
    exact List.forall_mem_nil _
  | call symbol =>
    obtain rfl := h
    exact List.forall_mem_singleton.2 hp
  | seq a b iha ihb =>
    obtain ⟨front, back, rfl, ha, hb⟩ := h
    obtain ⟨hpa, hpb⟩ := Bool.and_eq_true_iff.1 hp
    exact List.forall_mem_append.2 ⟨iha ha hpa, ihb hb hpb⟩
  | choice a b iha ihb =>
    obtain ⟨hpa, hpb⟩ := Bool.and_eq_true_iff.1 hp
    exact h.elim (iha · hpa) (ihb · hpb)
  | optional a ih =>
    rcases h with rfl | h
    · exact List.forall_mem_nil _
    · exact ih h hp
  | many a ih =>
    obtain ⟨groups, rfl, hgroups⟩ := h
    intro symbol hsymbol
    obtain ⟨group, hgroup, hmem⟩ := List.mem_flatten.1 hsymbol
    exact ih (hgroups group hgroup) hp symbol hmem

@[simp]
theorem Pattern.shape_text {chars : List Char} :
    (Pattern.text chars).Shape symbols ↔ symbols = [] :=
  Iff.rfl

@[simp]
theorem Pattern.shape_call : (Pattern.call symbol).Shape symbols ↔ symbols = [symbol] :=
  Iff.rfl

@[simp]
theorem Pattern.shape_optional :
    (Pattern.optional a).Shape symbols ↔ symbols = [] ∨ a.Shape symbols :=
  Iff.rfl

/-- A symbol that is asked for first is found first. -/
@[simp]
theorem Pattern.shape_call_seq :
    ((Pattern.call symbol).seq p).Shape symbols ↔
      ∃ rest, symbols = symbol :: rest ∧ p.Shape rest := by
  constructor
  · rintro ⟨_, back, rfl, rfl, hback⟩
    exact ⟨back, rfl, hback⟩
  · rintro ⟨rest, rfl, hrest⟩
    exact ⟨[symbol], rest, rfl, rfl, hrest⟩

/-- Characters that are asked for leave no node. -/
@[simp]
theorem Pattern.shape_text_seq {chars : List Char} :
    ((Pattern.text chars).seq p).Shape symbols ↔ p.Shape symbols := by
  constructor
  · rintro ⟨_, back, rfl, rfl, hback⟩
    exact hback
  · exact fun h ↦ ⟨[], symbols, rfl, rfl, h⟩

/-- What is optional is there or not. -/
@[simp]
theorem Pattern.shape_optional_seq :
    ((Pattern.optional a).seq p).Shape symbols ↔ p.Shape symbols ∨ (a.seq p).Shape symbols := by
  constructor
  · rintro ⟨_, back, rfl, rfl | ha, hback⟩
    · exact .inl hback
    · exact .inr ⟨_, back, rfl, ha, hback⟩
  · rintro (h | ⟨front, back, rfl, ha, hback⟩)
    · exact ⟨[], symbols, rfl, .inl rfl, h⟩
    · exact ⟨front, back, rfl, .inr ha, hback⟩

@[simp]
theorem Pattern.shape_seq_seq :
    ((a.seq b).seq p).Shape symbols ↔ (a.seq (b.seq p)).Shape symbols := by
  constructor
  · rintro ⟨_, back, rfl, ⟨front, middle, rfl, ha, hb⟩, hback⟩
    exact ⟨front, middle ++ back, List.append_assoc .., ha, middle, back, rfl, hb, hback⟩
  · rintro ⟨front, _, rfl, ha, middle, back, rfl, hb, hback⟩
    exact ⟨front ++ middle, back, (List.append_assoc ..).symm, ⟨front, middle, rfl, ha, hb⟩, hback⟩

/-- What finds one symbol finds the first one. -/
theorem Pattern.Shape.first {P : σ → Prop} (ha : ∀ {found}, a.Shape found → ∃ s, P s ∧ found = [s])
    (h : (a.seq p).Shape symbols) : ∃ s rest, P s ∧ symbols = s :: rest ∧ p.Shape rest := by
  obtain ⟨front, back, rfl, hfront, hback⟩ := h
  obtain ⟨s, hs, rfl⟩ := ha hfront
  exact ⟨s, back, hs, rfl, hback⟩

/-! ### Alternating lists -/

section Alternates

variable {α β : Type} {P Q : α → Prop}

/-- Members with one property and with another one by turns, in pairs. -/
inductive Alternates (P Q : α → Prop) : List α → Prop
  | nil : Alternates P Q []
  | cons {first second : α} {rest : List α} (hfirst : P first) (hsecond : Q second)
      (hrest : Alternates P Q rest) : Alternates P Q (first :: second :: rest)

theorem Alternates.imp {P' Q' : α → Prop} {as : List α} (h : Alternates P Q as)
    (hP : ∀ a ∈ as, P a → P' a) (hQ : ∀ a ∈ as, Q a → Q' a) : Alternates P' Q' as := by
  induction h with
  | nil => exact .nil
  | cons hfirst hsecond _ ih =>
    simp only [List.forall_mem_cons] at hP hQ
    exact .cons (hP.1 hfirst) (hQ.2.1 hsecond) (ih hP.2.2 hQ.2.2)

theorem Alternates.of_map {P Q : β → Prop} {f : α → β} {as : List α}
    (h : Alternates P Q (as.map f)) : Alternates (fun a ↦ P (f a)) (fun a ↦ Q (f a)) as := by
  generalize hbs : as.map f = bs at h
  induction h generalizing as with
  | nil =>
    obtain rfl := List.map_eq_nil_iff.1 hbs
    exact .nil
  | cons hfirst hsecond _ ih =>
    obtain ⟨first, _, rfl, rfl, hbs'⟩ := List.map_eq_cons_iff.1 hbs
    obtain ⟨second, rest, rfl, rfl, hrest⟩ := List.map_eq_cons_iff.1 hbs'
    exact .cons hfirst hsecond (ih hrest)

/-- Two symbols that are repeated together are found by turns. -/
theorem Alternates.of_shape {first second : σ}
    (h : (Pattern.many ((Pattern.call first).seq (.call second))).Shape symbols) :
    Alternates (· = first) (· = second) symbols := by
  obtain ⟨groups, rfl, hgroups⟩ := h
  induction groups with
  | nil => exact .nil
  | cons group groups ih =>
    obtain ⟨hgroup, hrest⟩ := List.forall_mem_cons.1 hgroups
    obtain ⟨_, rfl, rfl⟩ := Pattern.shape_call_seq.1 hgroup
    exact .cons rfl rfl (ih hrest)

end Alternates

end Snippet.Grammar

namespace Snippet.Script

open Grammar

namespace Symbol

/-! ### Kinds of symbols -/

/-- The symbols of statements. -/
def isStatement : Symbol → Bool
  | block | ifStmt | whileStmt | foreachStmt | returnStmt | throwStmt | breakStmt | continueStmt
  | declaration | assignment | exprStmt | emptyStmt => true
  | _ => false

/-- The symbols of expressions, on all levels. -/
def isExpression : Symbol → Bool
  | expr | orExpr | andExpr | eqExpr | cmpExpr | addExpr | mulExpr | unary | postfixed | listLit
  | mapLit | floatLit | intLit | stringLit | boolLit | nullLit | ident => true
  | _ => false

/-- The symbols of operators with two operands. -/
def isOperator : Symbol → Bool
  | orOp | andOp | eqOp | cmpOp | addOp | mulOp => true
  | _ => false

/-- The symbols of steps into a value. -/
def isStep : Symbol → Bool
  | index | member => true
  | _ => false

/-- The symbols of what stands behind an operand. -/
def isSuffix (symbol : Symbol) : Bool :=
  symbol == callArgs || symbol.isStep

theorem eq_of_isStep {symbol : Symbol} (h : symbol.isStep = true) :
    symbol = index ∨ symbol = member := by
  cases symbol <;> cases h
  case index => exact .inl rfl
  case member => exact .inr rfl

theorem eq_of_isSuffix {symbol : Symbol} (h : symbol.isSuffix = true) :
    symbol = callArgs ∨ symbol = index ∨ symbol = member :=
  (Bool.or_eq_true_iff.1 h).imp eq_of_beq eq_of_isStep

/-- The symbols of what stands in a program. -/
def isProgramPart (symbol : Symbol) : Bool :=
  symbol.isStatement || symbol == tailExpr || symbol == ending

theorem eq_of_isProgramPart {symbol : Symbol} (h : symbol.isProgramPart = true) :
    symbol.isStatement = true ∨ symbol = tailExpr ∨ symbol = ending := by
  rw [isProgramPart, Bool.or_assoc, Bool.or_eq_true_iff, Bool.or_eq_true_iff] at h
  exact h.imp_right fun h ↦ h.imp eq_of_beq eq_of_beq

/-- A statement leaves one node, whatever it is. -/
theorem shape_anyStatement {symbols : List Symbol} (h : anyStatement.Shape symbols) :
    ∃ s, s.isStatement = true ∧ symbols = [s] := by
  rcases h with rfl | rfl | rfl | rfl | rfl | rfl | rfl | rfl | rfl | rfl | rfl | rfl <;>
    exact ⟨_, rfl, rfl⟩

/-- Parentheses leave no node, so what is in them is an innermost expression too. -/
theorem shape_anyPrimary {symbols : List Symbol} (h : anyPrimary.Shape symbols) :
    ∃ e, e.isExpression = true ∧ symbols = [e] := by
  rcases h with rfl | rfl | rfl | rfl | rfl | rfl | rfl | rfl | h
  case inr.inr.inr.inr.inr.inr.inr.inr =>
    have hparen : ((Pattern.lit "(").seq ((Pattern.call expr).seq (.lit ")"))).Shape symbols := h
    exact ⟨expr, rfl, by simpa [Pattern.lit] using hparen⟩
  all_goals exact ⟨_, rfl, rfl⟩

/-! ### The parts of each phrase -/

/-- An operand, and an operator and an operand any number of times. -/
def Linked (operand operator : Symbol) (parts : List Symbol) : Prop :=
  ∃ links, parts = operand :: links ∧ Alternates (· = operator) (· = operand) links

/-- The symbols of the parts of a node. Tokens have no parts. -/
def Parts : Symbol → List Symbol → Prop
  | program, parts => ∀ s ∈ parts, s.isProgramPart = true
  | tailExpr, parts => parts = [expr]
  | block, parts => ∀ s ∈ parts, s.isStatement = true
  | ifStmt, parts => ∃ yes, yes.isStatement = true ∧ (parts = [kwIf, expr, yes] ∨
      ∃ no, no.isStatement = true ∧ parts = [kwIf, expr, yes, kwElse, no])
  | whileStmt, parts => ∃ body, body.isStatement = true ∧ parts = [kwWhile, expr, body]
  | foreachStmt, parts => ∃ body, body.isStatement = true ∧
      parts = [kwForeach, declType, ident, kwIn, expr, body]
  | returnStmt, parts => parts = [kwReturn, semi] ∨ parts = [kwReturn, expr, semi]
  | throwStmt, parts => parts = [kwThrow, expr, semi]
  | breakStmt, parts => parts = [kwBreak, semi]
  | continueStmt, parts => parts = [kwContinue, semi]
  | declaration, parts => parts = [declType, ident, semi] ∨ parts = [declType, ident, expr, semi]
  | assignment, parts => parts = [assignTarget, assignOp, expr, semi]
  | exprStmt, parts => parts = [expr, semi]
  | emptyStmt, parts => parts = [semi]
  | assignTarget, parts => ∃ path, parts = ident :: path ∧ ∀ s ∈ path, s.isStep = true
  | expr, parts => parts = [orExpr] ∨ parts = [orExpr, expr, expr]
  | orExpr, parts => Linked andExpr orOp parts
  | andExpr, parts => Linked eqExpr andOp parts
  | eqExpr, parts => Linked cmpExpr eqOp parts
  | cmpExpr, parts => Linked addExpr cmpOp parts
  | addExpr, parts => Linked mulExpr addOp parts
  | mulExpr, parts => Linked unary mulOp parts
  | unary, parts => ∃ signs, parts = signs ++ [postfixed] ∧ ∀ s ∈ signs, s = unaryOp
  | postfixed, parts => ∃ e suffixes, e.isExpression = true ∧ parts = e :: suffixes ∧
      ∀ s ∈ suffixes, s.isSuffix = true
  | callArgs, parts | listLit, parts => ∀ s ∈ parts, s = expr
  | index, parts => parts = [expr]
  | member, parts => parts = [ident]
  | mapLit, parts => ∀ s ∈ parts, s = mapEntry
  | mapEntry, parts => parts = [expr, expr]
  | _, parts => parts = []

theorem linked_of_shape {operand operator : Symbol} {symbols : List Symbol}
    (h : (Pattern.seq (.call operand)
      (.many (.seq (.call operator) (.call operand)))).Shape symbols) :
    Linked operand operator symbols := by
  obtain ⟨links, rfl, hlinks⟩ := Pattern.shape_call_seq.1 h
  exact ⟨links, rfl, .of_shape hlinks⟩

/-- The rule of a phrase finds the parts of the table. -/
theorem parts_of_shape {symbol : Symbol} {spaced : Bool} {body : Pattern Symbol}
    (hrule : symbol.rule = .phrase spaced body) {symbols : List Symbol}
    (h : body.Shape symbols) : symbol.Parts symbols := by
  cases symbol <;> cases hrule
  -- phrases with any number of parts of one kind
  case program => exact h.kind_eq isProgramPart rfl
  case block => exact h.kind_eq isStatement rfl
  case callArgs | listLit => exact fun s hs ↦ eq_of_beq (h.kind_eq (· == expr) rfl s hs)
  case mapLit => exact fun s hs ↦ eq_of_beq (h.kind_eq (· == mapEntry) rfl s hs)
  case orExpr | andExpr | eqExpr | cmpExpr | addExpr | mulExpr => exact linked_of_shape h
  -- phrases with a statement in them, the node of which may be of any kind
  case ifStmt =>
    simp only [Pattern.all, Pattern.lit, Pattern.shape_call_seq, Pattern.shape_text_seq] at h
    obtain ⟨_, rfl, _, rfl, hbranches⟩ := h
    obtain ⟨yes, _, hyes, rfl, rfl | helse⟩ := hbranches.first shape_anyStatement
    · exact ⟨yes, hyes, .inl rfl⟩
    · obtain ⟨_, rfl, hstatement⟩ := Pattern.shape_call_seq.1 helse
      obtain ⟨no, hno, rfl⟩ := shape_anyStatement hstatement
      exact ⟨yes, hyes, .inr ⟨no, hno, rfl⟩⟩
  case whileStmt =>
    simp only [Pattern.all, Pattern.lit, Pattern.shape_call_seq, Pattern.shape_text_seq] at h
    obtain ⟨_, rfl, _, rfl, hstatement⟩ := h
    obtain ⟨body, hbody, rfl⟩ := shape_anyStatement hstatement
    exact ⟨body, hbody, rfl⟩
  case foreachStmt =>
    simp only [Pattern.all, Pattern.lit, Pattern.shape_call_seq, Pattern.shape_text_seq] at h
    obtain ⟨_, rfl, _, rfl, _, rfl, _, rfl, _, rfl, hstatement⟩ := h
    obtain ⟨body, hbody, rfl⟩ := shape_anyStatement hstatement
    exact ⟨body, hbody, rfl⟩
  case unary =>
    obtain ⟨signs, _, rfl, hsigns, rfl⟩ := h
    exact ⟨signs, rfl, fun s hs ↦ eq_of_beq (hsigns.kind_eq (· == unaryOp) rfl s hs)⟩
  case postfixed =>
    obtain ⟨e, suffixes, he, rfl, hsuffixes⟩ := h.first shape_anyPrimary
    exact ⟨e, suffixes, he, rfl, hsuffixes.kind_eq isSuffix rfl⟩
  case assignTarget =>
    obtain ⟨path, rfl, hpath⟩ := Pattern.shape_call_seq.1 h
    exact ⟨path, rfl, hpath.kind_eq isStep rfl⟩
  -- the parts of all other phrases are listed in the table one by one
  all_goals simpa [Pattern.all, Pattern.lit, Parts, and_or_left, exists_or] using h

theorem parts_of_token {symbol : Symbol} {lexeme : Recogniser}
    (hrule : symbol.rule = .token lexeme) : symbol.Parts [] := by
  cases symbol <;> cases hrule <;> rfl

end Symbol

section Nodes

variable {source : List Char} {node : Node Symbol}

/-- A node that stands in a text has the parts of the table. -/
theorem parts_of_stands (h : node.Stands language source) :
    node.symbol.Parts (node.parts.map Node.symbol) := by
  cases h with
  | token hrule _ _ _ => exact Symbol.parts_of_token hrule
  | phrase hrule hshape _ _ _ _ => exact Symbol.parts_of_shape hrule hshape

/-! ### The texts of tokens -/

/-- What a lexeme with fixed texts takes is one of them. -/
theorem ofList_take_mem {lexemes : List String} {s : List Char} {n : Nat}
    (h : ∃ lexeme ∈ lexemes, lexeme.toList <+: s ∧ n = lexeme.toList.length) :
    String.ofList (s.take n) ∈ lexemes := by
  obtain ⟨lexeme, hmem, hstart, rfl⟩ := h
  rwa [← List.prefix_iff_eq_take.1 hstart, String.ofList_toList]

theorem word_mem {words : List String} {s : List Char} {n : Nat}
    (h : Lexeme.word words s = some n) : String.ofList (s.take n) ∈ words := by
  obtain rfl := word_eq_some h
  simp only [Lexeme.word] at h
  split at h
  · next hwords =>
    obtain ⟨word, hmem, hword⟩ := List.any_eq_true.1 hwords
    have htake : s.take (spanLength isWordChar s) = wordAt s :=
      (List.prefix_iff_eq_take.1 (List.takeWhile_prefix isWordChar)).symm
    rwa [htake, ← eq_of_beq hword, String.ofList_toList]
  · cases h

/-- The text of a token is one that its lexeme takes. -/
theorem nodeText_mem {lexeme : Recogniser} {texts : List String}
    (h : node.Stands language source) (hrule : node.symbol.rule = .token lexeme)
    (htexts : ∀ {s n}, lexeme s = some n → String.ofList (s.take n) ∈ texts) :
    nodeText node ∈ texts := by
  obtain ⟨htext, hlexeme⟩ := h.text_eq hrule
  rw [nodeText, htext]
  exact htexts hlexeme

/-- Every operator of the grammar is one of the tree. -/
theorem exists_binaryOp (h : node.Stands language source)
    (hop : node.symbol.isOperator = true) : ∃ op, BinaryOp.ofSymbol? (nodeText node) = some op := by
  have hknown {lexeme : Recogniser} {texts : List String} (hrule : node.symbol.rule = .token lexeme)
      (htexts : ∀ {s n}, lexeme s = some n → String.ofList (s.take n) ∈ texts)
      (hall : ∀ text ∈ texts, (BinaryOp.ofSymbol? text).isSome = true) :
      ∃ op, BinaryOp.ofSymbol? (nodeText node) = some op :=
    Option.isSome_iff_exists.1 (hall _ (nodeText_mem h hrule htexts))
  cases hsymbol : node.symbol <;> rw [hsymbol] at hop hknown <;> cases hop
  case orOp | andOp =>
    exact hknown rfl (fun hn ↦ ofList_take_mem ⟨_, List.mem_singleton_self _, exactly_eq_some hn⟩)
      (by decide)
  all_goals exact hknown rfl (fun hn ↦ ofList_take_mem (oneOf_eq_some hn)) (by decide)

theorem exists_assignOp (h : node.Stands language source) (hsymbol : node.symbol = .assignOp) :
    ∃ op, AssignOp.ofSymbol? (nodeText node) = some op := by
  have hknown : ∀ text ∈ ["=", "+=", "-=", "*=", "/="],
      (AssignOp.ofSymbol? text).isSome = true := by decide
  have hrule : node.symbol.rule = .token Lexeme.assignment := by rw [hsymbol]; rfl
  have hmem := nodeText_mem h hrule fun hn ↦ ofList_take_mem (assignment_eq_some hn)
  exact Option.isSome_iff_exists.1 (hknown _ hmem)

/-- Every word for a type is one of the tree. -/
theorem exists_declType (h : node.Stands language source) (hsymbol : node.symbol = .declType) :
    ∃ type, DeclType.ofWord? (nodeText node) = some type := by
  have hknown : ∀ text ∈ typeWords, (DeclType.ofWord? text).isSome = true := by decide
  have hrule : node.symbol.rule = .token (Lexeme.word typeWords) := by rw [hsymbol]; rfl
  exact Option.isSome_iff_exists.1 (hknown _ (nodeText_mem h hrule word_mem))

/-- Digits with a point between them denote a double. -/
theorem exists_unsigned? {whole fraction : List Char} (hne : whole ≠ [])
    (hwhole : ∀ c ∈ whole, c.isDigit = true) (hfraction : ∀ c ∈ fraction, c.isDigit = true) :
    ∃ x, Decimal.unsigned? (whole ++ '.' :: fraction) = some x := by
  have hdigits : (whole ++ '.' :: fraction).takeWhile Char.isDigit = whole := by
    rw [List.takeWhile_append_of_pos hwhole, List.takeWhile_cons_of_neg (by decide),
      List.append_nil]
  have hend : fraction.dropWhile Char.isDigit = [] := List.dropWhile_eq_nil_iff.2 hfraction
  simp only [Decimal.unsigned?, hdigits, List.drop_left]
  split
  · exact ⟨_, rfl⟩
  split
  · exact ⟨_, rfl⟩
  rw [hend, if_neg (by simp [hne])]
  exact ⟨_, rfl⟩

theorem exists_ofText? {whole fraction : List Char} (hne : whole ≠ [])
    (hwhole : ∀ c ∈ whole, c.isDigit = true) (hfraction : ∀ c ∈ fraction, c.isDigit = true) :
    ∃ x, Decimal.ofText? (String.ofList (whole ++ '.' :: fraction)) = some x := by
  have hsign {c : Char} {rest : List Char} (heq : whole ++ '.' :: fraction = c :: rest) :
      c.isDigit = true := by
    obtain ⟨d, ds, rfl⟩ := List.exists_cons_of_ne_nil hne
    obtain ⟨rfl, -⟩ := List.cons.inj heq
    exact hwhole d (List.mem_cons_self ..)
  rw [Decimal.ofText?, String.toList_ofList]
  split
  · next heq => exact absurd (hsign heq) (by decide)
  · next heq => exact absurd (hsign heq) (by decide)
  · exact exists_unsigned? hne hwhole hfraction

theorem exists_digits {s : List Char} {n : Nat} (h : Lexeme.fraction s = some n) :
    ∃ whole fraction, s.take n = whole ++ '.' :: fraction ∧ whole ≠ [] ∧
      (∀ c ∈ whole, c.isDigit = true) ∧ ∀ c ∈ fraction, c.isDigit = true := by
  have hpos : spanLength Char.isDigit s ≠ 0 := by
    intro hzero
    rw [Lexeme.fraction, hzero] at h
    cases h
  obtain ⟨rest, hdrop, rfl⟩ := fraction_eq_some h
  refine ⟨s.take (spanLength Char.isDigit s), rest.take (spanLength Char.isDigit rest), ?_, ?_,
    fun _ ↦ of_mem_take_spanLength, fun _ ↦ of_mem_take_spanLength⟩
  · rw [List.take_add, hdrop, List.take_succ_cons]
  · rw [Ne, List.take_eq_nil_iff, not_or]
    refine ⟨hpos, ?_⟩
    rintro rfl
    exact hpos rfl

theorem exists_float (h : node.Stands language source) (hsymbol : node.symbol = .floatLit) :
    ∃ x, Decimal.ofText? (nodeText node) = some x := by
  have hrule : node.symbol.rule = .token Lexeme.fraction := by rw [hsymbol]; rfl
  obtain ⟨htext, hlexeme⟩ := h.text_eq hrule
  obtain ⟨whole, fraction, htake, hne, hwhole, hfraction⟩ := exists_digits hlexeme
  rw [nodeText, htext, htake]
  exact exists_ofText? hne hwhole hfraction

/-- A string has a body between its quotes. -/
theorem exists_body (h : node.Stands language source) (hsymbol : node.symbol = .stringLit) :
    ∃ body, quotedBody? node.text = some body := by
  have hrule : node.symbol.rule = .token Lexeme.quoted := by rw [hsymbol]; rfl
  obtain ⟨htext, hlexeme⟩ := h.text_eq hrule
  obtain ⟨rest, m, hrest, hclose, hstop⟩ := quoted_eq_some hlexeme
  obtain ⟨body, tail, -, rfl, rfl⟩ := exists_quotedBody hclose
  have hfront : '"' :: (body ++ '"' :: tail) = '"' :: (body ++ ['"']) ++ tail := by simp
  refine ⟨body, ?_⟩
  rw [htext, hrest, hstop, hfront, List.take_left' (by simp), quotedBody?_quoted]

end Nodes

end Snippet.Script
