import Snippet.Proofs.Exchange
import Snippet.Proofs.HiddenValues

/-!
# Literals of variables that are never read

A report that a variable is never read can be relied on: the literal with which the variable is
declared can be exchanged for any other one that its type takes, and no run of the script tells the
difference (`run_variant`).

Behind the declaration the two runs are in states that differ in the value of the variable, until
its block ends (`Near`). So a statement with an exchanged literal inside of a block does exactly the
same as before, and only the rest of the block of the declaration has to be run side by side.
-/

namespace Snippet.Run

open Script (DeclType Exchanged Expr Ident Literal Program Stmt Unnoticed stmtsMention
  stmtsMention_append unusedReport)

variable {setting : Setting} {m m' : Machine} {x : String} {k : Nat} {y y' : Step Flow}

/-! ### What is the same on both sides -/

/-- The checks and the run agree on the literals that a type takes. -/
theorem takes_iff (type : DeclType) (value : Literal) :
    type.takes value = true ↔ ∃ v, coerce type (literalValue value) = .ok v := by
  cases type <;> cases value <;>
    first
    | exact iff_of_true rfl ⟨_, rfl⟩
    | exact iff_of_false Bool.false_ne_true nofun

theorem abreast_near (setting : Setting) (x : String) :
    Abreast (· ≠ x) (Near x) setting setting where
  twins := twins_near x
  limits := rfl
  cancelled := rfl
  late := rfl
  context := ⟨rfl, rfl⟩

/-- What does not read a variable does not tell its values from each other. -/
theorem admitted_of_not_mentions {read : String → Bool} (h : read x = false) :
    Admitted (· ≠ x) read := by
  rintro name hname rfl
  rw [h] at hname
  cases hname

/-- Bodies that agree up to the values of a variable of their block do the same as blocks. -/
theorem inBlock_eq (h : ∀ m, Agree (Near x 1) (y m) (y' m)) : inBlock y' = inBlock y := by
  funext m
  rw [inBlock_apply, inBlock_apply]
  have hagree := h m.enter
  generalize y m.enter = r, y' m.enter = r' at hagree
  cases hagree with
  | ok hm => exact congrArg (EStateM.Result.ok _) ((twins_near x).leave hm).eq
  | error hm => exact congrArg (EStateM.Result.error _) ((twins_near x).leave hm).eq

/-- And as bodies of a loop over items. -/
theorem forItems_eq (h : ∀ m, Agree (Near x 1) (y m) (y' m)) (setting : Setting) (name : String)
    (type : DeclType) (items : List Value) :
    forItems setting name type y' items = forItems setting name type y items := by
  induction items with
  | nil => rfl
  | cons item rest ih =>
    have hround : inBlock (do declare name type item; y') =
        inBlock (do declare name type item; y) := by
      refine @inBlock_eq x _ _ fun m ↦ ?_
      rw [bind_apply, bind_apply]
      cases declare name type item m with
      | ok _ m₁ => exact h m₁
      | error halt m₁ => exact .error (Near.refl x 1 m₁)
    rw [forItems, forItems, hround, ih]

/-- A statement that stands alone is executed like a list. -/
theorem execList_singleton (setting : Setting) (s : Stmt) :
    execList setting false [s] = exec setting s := by
  funext m
  rw [execList, bind_apply]
  rcases exec setting s m with ⟨flow, m₁⟩ | ⟨halt, m₁⟩
  · cases flow <;> rfl
  · rfl

theorem agree_alone {s s' : Stmt} {R : Machine → Machine → Prop}
    (h : ∀ top m, Agree R (execList setting top [s] m) (execList setting top [s'] m))
    (m : Machine) : Agree R (exec setting s m) (exec setting s' m) := by
  have halone := h false m
  rwa [execList_singleton, execList_singleton] at halone

/-! ### An exchanged literal -/

/-- Adds a variable to the innermost block, as a statement does. -/
def addVariable (slot : Slot) : Step Flow :=
  fun m ↦ .ok .normal { m with scopes := addSlot slot m.scopes }

/-- A declaration with a literal that its type takes costs two steps. -/
theorem exec_declare {type : DeclType} {value : Literal} {v : Value}
    (hv : coerce type (literalValue value) = .ok v) (setting : Setting) (span literalSpan : Span)
    (name : Ident) :
    exec setting (.declare span type name (some (.literal literalSpan value))) =
      (do tick setting; tick setting; addVariable ⟨name.name, type, v⟩) := by
  have hdeclare : (do declare name.name type (literalValue value); return .normal : Step Flow) =
      addVariable ⟨name.name, type, v⟩ := by
    funext m
    rw [bind_apply, declare_apply, hv]
    rfl
  rw [exec]
  simp only [eval, bind_assoc, pure_bind, hdeclare]

/-- The variable may differ in its value. -/
theorem agree_addVariable (name : String) (type : DeclType) (v v' : Value) (m : Machine) :
    Agree (Near name 1) (addVariable ⟨name, type, v⟩ m) (addVariable ⟨name, type, v'⟩ m) := by
  refine .ok ⟨rfl, ?_, rfl⟩
  show hideIn name 1 (addSlot _ m.scopes) = hideIn name 1 (addSlot _ m.scopes)
  cases m.scopes with
  | nil => rfl
  | cons scope rest =>
    have hhide (v : Value) : hide name ⟨name, type, v⟩ = ⟨name, type, .null⟩ := if_pos rfl
    show (_ :: _) :: _ = (_ :: _) :: _
    rw [hhide, hhide]

/-- Behind the two declarations nothing but the value of the variable differs. -/
theorem agree_of_unnoticed {x : Ident} {s s' : Stmt} {behind : List Stmt}
    (h : Unnoticed x s s' behind) (setting : Setting) (m : Machine) :
    Agree (Near x.name 1) (exec setting s m) (exec setting s' m) := by
  obtain ⟨htakes, htakes', -⟩ := h
  rename_i span type literalSpan literalSpan' value value'
  obtain ⟨v, hv⟩ := (takes_iff type value).1 htakes
  obtain ⟨v', hv'⟩ := (takes_iff type value').1 htakes'
  rw [exec_declare hv, exec_declare hv', bind_apply, bind_apply]
  rcases tick setting m with ⟨_, m₁⟩ | ⟨halt, m₁⟩
  · dsimp only
    rw [bind_apply, bind_apply]
    rcases tick setting m₁ with ⟨_, m₂⟩ | ⟨halt, m₂⟩
    · exact agree_addVariable x.name type v v' m₂
    · exact .error (.refl x.name 1 m₂)
  · exact .error (.refl x.name 1 m₁)

/-- The blocks in which there may be a difference behind a list: its own, unless something beyond
the list reads the variable. -/
def openBlocks (x : Ident) (beyond : List Stmt) : Nat :=
  if stmtsMention x.name beyond then 0 else 1

/-- A statement that does the same makes no difference. -/
theorem agree_of_exec_eq {s s' : Stmt} (hs : exec setting s' = exec setting s) (top : Bool)
    (rest : List Stmt) (m : Machine) :
    Agree (Near x k) (execList setting top (s :: rest) m)
      (execList setting top (s' :: rest) m) := by
  rw [execList, execList, hs]
  exact .refl (Near.refl x k) _

/-- Lists of statements that differ in a literal that nothing reads end in the same way. -/
theorem agree_of_exchanged {x : Ident} {beyond ss ss' : List Stmt}
    (h : Exchanged (Unnoticed x) beyond ss ss') (setting : Setting) (top : Bool) (m : Machine) :
    Agree (Near x.name (openBlocks x beyond)) (execList setting top ss m)
      (execList setting top ss' m) := by
  -- only the rest of the declaration's own block is run from states that differ; the blocks around
  -- it do exactly the same
  induction h generalizing top m with
  | here h =>
    rename_i beyond s s' rest
    have hstmt := agree_of_unnoticed h setting m
    have hread : stmtsMention x.name (rest ++ beyond) = false := by
      cases h
      assumption
    rw [stmtsMention_append, Bool.or_eq_false_iff] at hread
    obtain ⟨hrest, hbeyond⟩ := hread
    have hopen : openBlocks x beyond = 1 := by
      rw [openBlocks, hbeyond, if_neg Bool.false_ne_true]
    rw [execList, execList, bind_apply, bind_apply, hopen]
    generalize exec setting s m = r, exec setting s' m = r' at hstmt
    cases hstmt with
    | error hm => exact .error hm
    | ok hm =>
      dsimp only
      split
      · exact .execList (abreast_near setting x.name) top (admitted_of_not_mentions hrest) hm
      · exact .ok hm
  | later _ ih =>
    rw [execList, execList, bind_apply, bind_apply]
    rename_i s rest rest' _
    rcases exec setting s m with ⟨flow, m₁⟩ | ⟨halt, m₁⟩
    · dsimp only
      split
      · exact ih top m₁
      · exact .ok (.refl _ _ m₁)
    · exact .error (.refl _ _ m₁)
  | block _ ih =>
    refine agree_of_exec_eq ?_ top _ m
    rw [exec, exec, execBlock_eq_execList, execBlock_eq_execList, inBlock_eq (ih false)]
  | yes _ ih =>
    refine agree_of_exec_eq ?_ top _ m
    rw [exec.eq_def, exec.eq_def]
    dsimp only
    rw [inBlock_eq (agree_alone ih)]
  | no _ ih =>
    refine agree_of_exec_eq ?_ top _ m
    rw [exec.eq_def, exec.eq_def]
    dsimp only
    rw [inBlock_eq (agree_alone ih)]
  | whileLoop _ ih =>
    refine agree_of_exec_eq ?_ top _ m
    rw [exec, exec, inBlock_eq (agree_alone ih)]
  | forEach _ ih =>
    refine agree_of_exec_eq ?_ top _ m
    rw [exec, exec]
    simp only [forItems_eq (agree_alone ih)]

theorem Agree.eq {α : Type} {r r' : Ended α} (h : Agree (Near x 0) r r') : r' = r := by
  cases h with
  | ok hm => rw [hm.eq]
  | error hm => rw [hm.eq]

/-- A variable that may still differ behind the statements is not read at the end of the script. -/
theorem endAlike_of_agree {program : Program} {x : Ident} {r r' : Ended Flow}
    (h : Agree (Near x.name (openBlocks x program.last)) r r') :
    EndAlike (Near x.name (openBlocks x program.last)) (conclude setting program.tail r)
      (conclude setting program.tail r') := by
  cases hread : stmtsMention x.name program.last with
  | true =>
    have hopen : openBlocks x program.last = 0 := by rw [openBlocks, hread, if_pos rfl]
    rw [hopen] at h ⊢
    rw [h.eq]
    exact ⟨rfl, .refl x.name 0 _⟩
  | false =>
    have htail (e : Expr) (he : program.tail = some e) :
        Admitted (· ≠ x.name) (e.mentions ·) := by
      rw [Program.last, he] at hread
      exact admitted_of_not_mentions (Bool.or_eq_false_iff.1 hread).1
    exact h.conclude (abreast_near setting x.name) htail

/-- Two scripts end with the same result and the same replies, after the same number of steps. -/
structure SameOutcome (setting : Setting) (outbox : Outbox) (program program' : Program) :
    Prop where
  result : (run setting program' outbox).result = (run setting program outbox).result
  replies : (run setting program' outbox).machine.outbox =
    (run setting program outbox).machine.outbox
  steps : (run setting program' outbox).machine.steps = (run setting program outbox).machine.steps

/-- **Reports on variables that are never read can be relied on.** Where a script only gets warnings
and a variable is reported, the literal with which it is declared can be any that its type takes. -/
theorem run_variant {program program' : Program} {x : Ident}
    (hchecked : ∀ c ∈ Script.check program, c.isError = false) (hreported : program.Reports x)
    (h : program.Variant x program') (setting : Setting) (outbox : Outbox) :
    SameOutcome setting outbox program program' := by
  have hstatements :=
    agree_of_exchanged (h.unnoticed hchecked hreported) setting true (.start outbox)
  have hends := @endAlike_of_agree setting program x _ _ hstatements
  have hrun : run setting program' outbox = conclude setting program.tail
      (execList setting true program'.statements (.start outbox)) := by
    rw [run_eq_conclude, h.tail]
  rw [← hrun, ← run_eq_conclude] at hends
  exact ⟨hends.result, hends.machine.outbox, hends.machine.steps⟩

/-- The script `foreach (var i in [1, 2]) { int n = 1; n = i; emitReply("again"); } 3`, with any
literal for the 1 with which `n` is declared. -/
def neverRead (value : Literal) : Program where
  statements :=
    [.forEach ⟨0, 67⟩ .var ⟨"i", ⟨13, 14⟩⟩
      (.list ⟨18, 24⟩ [.literal ⟨19, 20⟩ (.int 1), .literal ⟨22, 23⟩ (.int 2)])
      (.block ⟨26, 67⟩
        [.declare ⟨28, 38⟩ .int ⟨"n", ⟨32, 33⟩⟩ (some (.literal ⟨36, 37⟩ value)),
          .assign ⟨39, 45⟩ ⟨"n", ⟨39, 40⟩⟩ [] .set (.name ⟨43, 44⟩ "i"),
          .expression ⟨46, 65⟩
            (.call ⟨46, 64⟩ (.name ⟨46, 55⟩ "emitReply") [.literal ⟨56, 63⟩ (.string "again")])])]
  tail := some (.literal ⟨68, 69⟩ (.int 3))

/-- The variable is declared and set in each round, and its first value may be any number. -/
theorem run_variant_neverRead :
    (∀ c ∈ Script.check (neverRead (.int 1)), c.isError = false) ∧
      (neverRead (.int 1)).Reports ⟨"n", ⟨32, 33⟩⟩ ∧
      (neverRead (.int 1)).Variant ⟨"n", ⟨32, 33⟩⟩ (neverRead (.int 7)) ∧
      ∀ setting outbox, SameOutcome setting outbox (neverRead (.int 1)) (neverRead (.int 7)) := by
  have hchecked : ∀ c ∈ Script.check (neverRead (.int 1)), c.isError = false := by decide +kernel
  have hreported : (neverRead (.int 1)).Reports ⟨"n", ⟨32, 33⟩⟩ :=
    Program.reports_of_mem (by decide +kernel) (by decide +kernel)
  have hvariant : (neverRead (.int 1)).Variant ⟨"n", ⟨32, 33⟩⟩ (neverRead (.int 7)) :=
    ⟨.forEach (.block (.here (.mk rfl))), rfl⟩
  exact ⟨hchecked, hreported, hvariant, run_variant hchecked hreported hvariant⟩

end Snippet.Run
