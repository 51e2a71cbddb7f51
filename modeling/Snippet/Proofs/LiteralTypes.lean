import Snippet.Proofs.LiveNames

/-!
# Types that can be seen

The checks see the type of some expressions from their form alone, and have a table of the types
that a variable takes. A run knows neither: it converts the values that it gets. This module
compares the two.

* `typeName_of_eval`: where the checks see a type, every value has it, whatever the state.
* `coerce_eq`: the table says which values are converted.
* `endsAs_of_mirrors`: so a declaration or a plain assignment ends as the checks say, if they know
  the type of its variable.
* `literal_types_agree`: along a run they know it, except where two live variables have the name.
  The checks keep the first variable of a name and refuse the second one, and a run takes the last.
-/

namespace Snippet.Script

/-- The name of the variable that a statement assigns to. -/
def Stmt.assigned? : Stmt → Option String
  | .assign _ root _ _ _ => some root.name
  | _ => none

end Snippet.Script

namespace Snippet.Run

open Script (DeclType Expr Ident Local Program Stmt Survey Visit literalType?)

variable {setting : Setting} {m m' : Machine} {v w : Value} {t : String}

/-! ### Values of an expression whose type can be seen -/

theorem typeName_of_exactly {n : Int} (h : exactly n = .ok v) : v.typeName = "int" := by
  rw [exactly] at h
  split at h
  · cases h
    rfl
  · cases h

/-- The opposite of a number is of the same type. -/
theorem typeName_of_neg (h : applyUnary .neg v = .ok w) : w.typeName = v.typeName := by
  cases v with
  | int i => exact typeName_of_exactly h
  | float x =>
    cases h
    rfl
  | _ => cases h

theorem typeName_of_not (h : applyUnary .not v = .ok w) : w.typeName = "bool" := by
  cases v with
  | bool b =>
    cases h
    rfl
  | _ => cases h

/-- A comparison is true or false, whatever is compared. -/
theorem typeName_of_ordered {op : Script.BinaryOp} {limit : Nat} {a b : Value}
    (hop : op = .lt ∨ op = .le ∨ op = .gt ∨ op = .ge) (h : apply limit op a b = .ok w) :
    w.typeName = "bool" := by
  obtain rfl | rfl | rfl | rfl := hop
  all_goals
    rw [apply] at h
    dsimp only at h
    split at h
    · cases h
      rfl
    · cases h

/-- What is seen of a logical operator or a comparison. -/
theorem typeName_of_binary {span : Span} {op : Script.BinaryOp} {lhs rhs : Expr}
    (ht : literalType? (.binary span op lhs rhs) = some t)
    (h : eval setting (.binary span op lhs rhs) m = .ok v m') : v.typeName = t := by
  replace h := ok_of_tick h
  obtain ⟨left, _, -, h⟩ := bind_eq_ok_iff.1 h
  -- the second operand of a logical operator is asked for its truth
  have hright {construct : String} {m : Machine}
      (h : (do return .bool (← lift (truth construct (← eval setting rhs))) : Step Value) m =
        .ok v m') : v.typeName = "bool" := by
    obtain ⟨_, _, -, h⟩ := bind_eq_ok_iff.1 h
    obtain ⟨_, _, -, hpure⟩ := bind_eq_ok_iff.1 h
    cases hpure
    rfl
  have hcompared {m : Machine}
      (h : (do
          lift (apply setting.limits.maxElements op left (← eval setting rhs)) : Step Value) m =
        .ok v m') (hop : op = .eq ∨ op = .ne ∨ op = .lt ∨ op = .le ∨ op = .gt ∨ op = .ge) :
      v.typeName = "bool" := by
    obtain ⟨right, _, -, hlift⟩ := bind_eq_ok_iff.1 h
    obtain ⟨happly, -⟩ := lift_eq_ok_iff.1 hlift
    obtain rfl | rfl | hop := hop
    · cases happly
      rfl
    · cases happly
      rfl
    · exact typeName_of_ordered hop happly
  cases op with
  | and =>
    cases ht
    obtain ⟨holds, _, -, h⟩ := bind_eq_ok_iff.1 h
    cases holds with
    | true => exact hright h
    | false =>
      cases h
      rfl
  | or =>
    cases ht
    obtain ⟨holds, _, -, h⟩ := bind_eq_ok_iff.1 h
    cases holds with
    | true =>
      cases h
      rfl
    | false => exact hright h
  | eq | ne | lt | le | gt | ge =>
    cases ht
    exact hcompared h (by simp)
  | _ => cases ht

/-- **Where the checks see a type, every value has it.** -/
theorem typeName_of_eval : ∀ {e : Expr} {t : String} {m m' : Machine} {v : Value},
    literalType? e = some t → eval setting e m = .ok v m' → v.typeName = t
  | .literal _ value, _, _, _, _, ht, h => by
    replace h := ok_of_tick h
    cases h
    cases value <;> cases ht <;> rfl
  | .list _ items, _, _, _, _, ht, h => by
    replace h := ok_of_tick h
    obtain ⟨_, _, -, h⟩ := bind_eq_ok_iff.1 h
    obtain ⟨_, _, -, hlift⟩ := bind_eq_ok_iff.1 h
    cases ht
    obtain ⟨rfl, -⟩ := shaped_eq_ok (lift_eq_ok_iff.1 hlift).1
    rfl
  | .map _ entries, _, _, _, _, ht, h => by
    replace h := ok_of_tick h
    obtain ⟨_, _, -, h⟩ := bind_eq_ok_iff.1 h
    obtain ⟨_, _, -, hlift⟩ := bind_eq_ok_iff.1 h
    cases ht
    obtain ⟨rfl, -⟩ := shaped_eq_ok (lift_eq_ok_iff.1 hlift).1
    rfl
  | .unary _ .not operand, _, _, _, _, ht, h => by
    replace h := ok_of_tick h
    obtain ⟨_, _, -, hlift⟩ := bind_eq_ok_iff.1 h
    cases ht
    exact typeName_of_not (lift_eq_ok_iff.1 hlift).1
  | .unary _ .neg operand, t, _, _, v, ht, h => by
    have hoperand : literalType? operand = some t := by
      rw [literalType?] at ht
      split at ht <;> cases ht
      · assumption
      · assumption
    replace h := ok_of_tick h
    obtain ⟨_, _, heval, hlift⟩ := bind_eq_ok_iff.1 h
    exact (typeName_of_neg (lift_eq_ok_iff.1 hlift).1).trans (typeName_of_eval hoperand heval)
  | .binary _ _ _ _, _, _, _, _, ht, h => typeName_of_binary ht h

/-! ### Conversions -/

/-- A value is converted if the table has its type, and refused by its type if not. -/
theorem coerce_eq (type : DeclType) (v : Value) :
    if type.accepts v.typeName then ∃ w, coerce type v = .ok w
    else coerce type v = .error (.type (.noConversion v.typeName type)) := by
  cases v with
  | object kind _ _ => cases type <;> cases kind <;> first | exact ⟨_, rfl⟩ | rfl
  | _ => cases type <;> first | exact ⟨_, rfl⟩ | rfl

theorem accepts_iff_coerce (type : DeclType) (v : Value) :
    type.accepts v.typeName = true ↔ ∃ w, coerce type v = .ok w := by
  have hcoerce := coerce_eq type v
  split at hcoerce
  · next h => exact ⟨fun _ ↦ hcoerce, fun _ ↦ h⟩
  · next h =>
    refine ⟨fun haccepts ↦ absurd haccepts h, fun ⟨w, hw⟩ ↦ ?_⟩
    rw [hcoerce] at hw
    cases hw

/-! ### Statements that bind a value -/

/-- The value that a declaration or a plain assignment is to bind. The statement is counted before
it. -/
def offered (setting : Setting) (value : Expr) : Step Value := do
  tick setting
  eval setting value

/-- How a statement ends that binds a value of this type to a variable: as the computation of the
value ends, if that halts. Otherwise the statement ends normally if the variable takes values of
the type, and by a conversion that fails if it does not. -/
def EndsAs (setting : Setting) (type : DeclType) (value : Expr) (found : String) (m : Machine)
    (r : Ended Flow) : Prop :=
  match offered setting value m with
  | .error halt m' => r = .error halt m'
  | .ok _ m' =>
    if type.accepts found then ∃ m', r = .ok .normal m'
    else r = .error (.fault (.type (.noConversion found type))) m'

/-- A statement ends so if it first computes the value, and the rest of it converts the value. -/
theorem endsAs_of_bind {type : DeclType} {value : Expr} {found : String} {f : Value → Step Flow}
    (hfound : literalType? value = some found)
    (hf : ∀ v m', offered setting value m = .ok v m' →
      match coerce type v with
      | .ok _ => ∃ m'', f v m' = .ok .normal m''
      | .error fault => f v m' = .error (.fault fault) m') :
    EndsAs setting type value found m ((offered setting value >>= f) m) := by
  rw [EndsAs, bind_apply]
  rcases hoffered : offered setting value m with ⟨v, m'⟩ | ⟨halt, m'⟩
  · have htype : v.typeName = found := typeName_of_eval hfound (ok_of_tick hoffered)
    have hv := hf v m' hoffered
    have hcoerce := coerce_eq type v
    rw [htype] at hcoerce
    dsimp only
    split at hcoerce
    · next haccepts =>
      obtain ⟨w, hw⟩ := hcoerce
      rw [hw] at hv
      rw [if_pos haccepts]
      exact hv
    · next haccepts =>
      rw [hcoerce] at hv
      rw [if_neg haccepts]
      exact hv
  · rfl

/-- A declaration ends as the checks say. -/
theorem endsAs_declare {span : Span} {type : DeclType} {name : Ident} {value : Expr}
    {found : String} (hfound : literalType? value = some found) (m : Machine) :
    EndsAs setting type value found m (exec setting (.declare span type name (some value)) m) := by
  have hexec : exec setting (.declare span type name (some value)) =
      offered setting value >>= fun v ↦ do declare name.name type v; return .normal := by
    rw [offered, bind_assoc]
    rfl
  rw [hexec]
  refine endsAs_of_bind hfound fun v m' _ ↦ ?_
  rw [bind_apply, declare_apply]
  cases coerce type v with
  | ok w => exact ⟨_, rfl⟩
  | error fault => rfl

/-- So does a plain assignment to a variable of which the checks know the type. -/
theorem endsAs_assign {span : Span} {root : Ident} {value : Expr} {found : String} {slot : Slot}
    (hfound : literalType? value = some found) (hslot : findSlot? root.name m.scopes = some slot) :
    EndsAs setting slot.type value found m (exec setting (.assign span root [] .set value) m) := by
  have hassign : assign setting root.name [] .set value =
      eval setting value >>= fun v ↦ lookup root.name >>= fun slot ↦
        lift (coerce slot.type v) >>= store root.name :=
    rfl
  have hexec : exec setting (.assign span root [] .set value) =
      offered setting value >>= fun v ↦ lookup root.name >>= fun slot ↦
        lift (coerce slot.type v) >>= fun w ↦ store root.name w >>= fun _ ↦ pure .normal := by
    rw [exec, hassign, offered]
    simp only [bind_assoc]
  rw [hexec]
  refine endsAs_of_bind hfound fun v m' hoffered ↦ ?_
  have hscopes : m'.scopes = m.scopes :=
    (course_scopes.bind (course_scopes.count setting) fun _ ↦
      course_scopes.eval setting value).of_ok hoffered
  have hlookup : lookup root.name m' = .ok slot m' :=
    lookup_eq_ok_iff.2 ⟨hscopes ▸ hslot, rfl⟩
  rw [bind_of_ok hlookup, bind_apply, lift_apply]
  cases coerce slot.type v with
  | ok w => exact ⟨_, rfl⟩
  | error fault => rfl

/-- The variable that a statement assigns to is the only live one of its name. -/
def AssignsSole (s : Stmt) (m : Machine) : Prop :=
  ∀ x, s.assigned? = some x → (m.scopes.flatten.map Slot.name).count x ≤ 1

/-- **What the checks see of a value is how its statement ends.** It goes for every state in which
the name of the variable leaves no choice. -/
theorem endsAs_of_mirrors {trusted : String → Bool} {σ : Survey} {s : Stmt} {type : DeclType}
    {value : Expr} {found : String} (h : Mirrors trusted m.known σ) (hsole : AssignsSole s m)
    (htarget : (⟨s, σ⟩ : Visit).target? = some (type, value))
    (hfound : literalType? value = some found) :
    EndsAs setting type value found m (exec setting s m) := by
  cases s with
  | declare _ _ name init =>
    cases init with
    | none => cases htarget
    | some init =>
      cases htarget
      exact endsAs_declare hfound m
  | assign _ root path op init =>
    rw [Visit.target?_assign] at htarget
    split at htarget
    · next hplain =>
      obtain ⟨l, hl, htype⟩ := Option.map_eq_some_iff.1 htarget
      cases htype
      obtain ⟨rfl, hpath⟩ := hplain
      obtain rfl := List.isEmpty_iff.1 hpath
      have hsame := h.find?_of_sole (hsole _ rfl)
      rw [hl] at hsame
      obtain ⟨slot, hslot, hsignature⟩ := Option.map_eq_some_iff.1 hsame
      have htype : slot.type = l.type := congrArg Prod.snd hsignature
      rw [← htype]
      exact endsAs_assign hfound hslot
    · cases htarget
  | _ => cases htarget

/-- A value that is refused is not bound. -/
theorem EndsAs.not_ok {type : DeclType} {value : Expr} {found : String} {r : Ended Flow}
    (h : EndsAs setting type value found m r) (hrefused : type.accepts found = false)
    (flow : Flow) (m' : Machine) : r ≠ .ok flow m' := by
  rintro rfl
  rw [EndsAs] at h
  split at h
  · cases h
  · rw [if_neg (Bool.eq_false_iff.1 hrefused)] at h
    cases h

/-- If two live variables of a run have one name, then the checks have found this name taken. -/
theorem exists_taken_of_count {program : Program} {outbox : Outbox} {trace : List Execution}
    {r : Ended Flow} (h : RunsOf setting program outbox trace r) {e : Execution} (he : e ∈ trace)
    {x : String} (hcount : 1 < (e.start.scopes.flatten.map Slot.name).count x) :
    ∃ c ∈ Script.check program, c.problem.takenName? = some x := by
  by_contra hfree
  -- otherwise this name can be trusted, and all live variables of trusted names differ
  have htrusted : ∀ c ∈ Script.check program, ∀ y, c.problem.takenName? = some y →
      (y == x) = false := by
    intro c hc y hy
    refine beq_eq_false_iff_ne.2 ?_
    rintro rfl
    exact hfree ⟨c, hc, hy⟩
  have hstatements := (tracked_of_append (tracked_start htrusted outbox)).1
  have hdistinct := ((h.tracked hstatements).1 e he).distinct
  have hnames : ((Script.trustedOf (· == x) e.start.known.flatten).map Prod.fst).count x =
      (e.start.scopes.flatten.map Slot.name).count x := by
    rw [Script.trustedOf, Machine.known, shown, ← List.map_flatten, List.filter_map, List.map_map,
      List.count_eq_countP, List.countP_map, List.countP_filter, List.count_eq_countP,
      List.countP_map]
    exact List.countP_congr fun slot _ ↦ by simp [Slot.signature]
  have hle := List.nodup_iff_count_le_one.1 hdistinct x
  omega

/-- **Types that can be seen are those of a run.** Every value of an expression has the type that
the checks see, and is converted to the types that their table gives. The complaints about types
are those of the places to which the checks come, and a run comes to the same ones. What is
complained about there never ends normally, and what is not ends as the computation of its value
does. Of assignments this is said where one live variable has the name that is assigned to. If
another one has it too, then a declaration of the name has been refused. -/
theorem literal_types_agree (program : Program) :
    (∀ setting e t m v m', literalType? e = some t → eval setting e m = .ok v m' →
      v.typeName = t ∧ ∀ type, DeclType.accepts type t = true ↔ ∃ w, coerce type v = .ok w) ∧
    (Script.check program).filter (·.problem.isRefusal) = Script.refusals program.visits ∧
    ∀ setting outbox trace r, RunsOf setting program outbox trace r →
      ∀ e ∈ trace, ∀ s, e.task = .stmt s →
        (∃ visit ∈ program.visits, visit.stmt = s ∧ (AssignsSole s e.start →
          (∀ c, visit.refusal? = some c → ∀ flow m, e.result ≠ .ok flow m) ∧
          ∀ type value found, visit.target? = some (type, value) →
            literalType? value = some found →
              EndsAs setting type value found e.start e.result)) ∧
        (¬ AssignsSole s e.start → ∃ x, s.assigned? = some x ∧
          ∃ c ∈ Script.check program, c.problem.takenName? = some x) := by
  refine ⟨fun setting e t m v m' ht h ↦ ?_, Script.refusals_check program, ?_⟩
  · obtain rfl := typeName_of_eval ht h
    exact ⟨rfl, fun type ↦ accepts_iff_coerce type v⟩
  · intro setting outbox trace r hrun e he s hs
    refine ⟨?_, fun hsole ↦ ?_⟩
    · -- no name has to be trusted
      have htrusted : ∀ c ∈ Script.check program, ∀ name, c.problem.takenName? = some name →
          (fun _ ↦ false) name = false := fun _ _ _ _ ↦ rfl
      have hstatements := (tracked_of_append (tracked_start htrusted outbox)).1
      have ht := (hrun.tracked hstatements).1 e he
      obtain ⟨_, hpart⟩ := hrun.of_mem he
      have hresult := hpart.result_eq
      rw [hs] at ht hresult
      obtain ⟨σ, hvisit, hmirrors⟩ := ht.visited
      refine ⟨⟨s, σ⟩, hvisit, rfl, fun hsole ↦ ?_⟩
      have hends {type value found} (htarget : (⟨s, σ⟩ : Visit).target? = some (type, value))
          (hfound : literalType? value = some found) :
          EndsAs setting type value found e.start e.result := by
        rw [hresult]
        exact endsAs_of_mirrors hmirrors hsole htarget hfound
      refine ⟨fun c hc ↦ ?_, fun type value found ↦ hends⟩
      obtain ⟨⟨type, value⟩, htarget, hrefusal⟩ := Option.bind_eq_some_iff.1 hc
      obtain ⟨-, found, hfound, hrefused⟩ := Script.refusal?_eq_some hrefusal
      exact (hends htarget hfound).not_ok hrefused
    · obtain ⟨x, hx, hcount⟩ : ∃ x, s.assigned? = some x ∧
          1 < (e.start.scopes.flatten.map Slot.name).count x := by
        simpa [AssignsSole] using hsole
      exact ⟨x, hx, exists_taken_of_count hrun he hcount⟩

/-- The statement `x = "a";`. -/
def setsText : Stmt :=
  .assign ⟨12, 20⟩ ⟨"x", ⟨12, 13⟩⟩ [] .set (.literal ⟨16, 19⟩ (.string "a"))

/-- The script `int x = -1; x = "a"; { string x = "b"; }`. -/
def takenLater : Program where
  statements :=
    [.declare ⟨0, 11⟩ .int ⟨"x", ⟨4, 5⟩⟩ (some (.unary ⟨8, 10⟩ .neg (.literal ⟨9, 10⟩ (.int 1)))),
      setsText,
      .block ⟨21, 40⟩
        [.declare ⟨23, 38⟩ .string ⟨"x", ⟨30, 31⟩⟩ (some (.literal ⟨34, 37⟩ (.string "b")))]]
  tail := none

/-- The number is bound, and the assignment is refused by the checks and by the run. That its name
is declared again behind it does not matter. -/
theorem literal_types_agree_takenLater :
    literalType? (.unary ⟨8, 10⟩ .neg (.literal ⟨9, 10⟩ (.int 1))) = some "int" ∧
      (∃ v m, eval (.untimed ⟨100, 1000, 10⟩)
          (.unary ⟨8, 10⟩ .neg (.literal ⟨9, 10⟩ (.int 1))) (.start (.fresh true)) = .ok v m ∧
        v.typeName = "int" ∧
          ∀ type, DeclType.accepts type "int" = true ↔ ∃ w, coerce type v = .ok w) ∧
      (Script.check takenLater).filter (·.problem.isRefusal) =
        Script.refusals takenLater.visits ∧
      ⟨.typeMismatch "string" .int, ⟨16, 19⟩⟩ ∈ Script.check takenLater ∧
      ⟨.nameUsedOutside "x", ⟨30, 31⟩⟩ ∈ Script.check takenLater ∧
      ∃ trace r, RunsOf (.untimed ⟨100, 1000, 10⟩) takenLater (.fresh true) trace r ∧
        ∃ e ∈ trace, e.task = .stmt setsText ∧ AssignsSole setsText e.start ∧
          ∃ visit ∈ takenLater.visits, visit.stmt = setsText ∧
            (∀ c, visit.refusal? = some c → ∀ flow m, e.result ≠ .ok flow m) ∧
            ∀ type value found, visit.target? = some (type, value) →
              literalType? value = some found →
                EndsAs (.untimed ⟨100, 1000, 10⟩) type value found e.start e.result := by
  obtain ⟨htypes, hrefusals, hruns⟩ := literal_types_agree takenLater
  have heval : eval (.untimed ⟨100, 1000, 10⟩) (.unary ⟨8, 10⟩ .neg (.literal ⟨9, 10⟩ (.int 1)))
      (.start (.fresh true)) = .ok (.int (-1)) ⟨2, [[]], .fresh true⟩ := rfl
  have hbound : begin (.untimed ⟨100, 1000, 10⟩) (.declare ⟨0, 11⟩ .int ⟨"x", ⟨4, 5⟩⟩
        (some (.unary ⟨8, 10⟩ .neg (.literal ⟨9, 10⟩ (.int 1))))) (.start (.fresh true)) =
      .ok (.done .normal) ⟨3, [[⟨"x", .int, .int (-1)⟩]], .fresh true⟩ := rfl
  have hrefused : begin (.untimed ⟨100, 1000, 10⟩) setsText
        ⟨3, [[⟨"x", .int, .int (-1)⟩]], .fresh true⟩ =
      .error (.fault (.type (.noConversion "string" .int)))
        ⟨5, [[⟨"x", .int, .int (-1)⟩]], .fresh true⟩ := rfl
  obtain ⟨trace, r, hrun, e, he, hs, hstart⟩ : ∃ trace r,
      RunsOf (.untimed ⟨100, 1000, 10⟩) takenLater (.fresh true) trace r ∧
        ∃ e ∈ trace, e.task = .stmt setsText ∧
          e.start = ⟨3, [[⟨"x", .int, .int (-1)⟩]], .fresh true⟩ :=
    ⟨_, _, .listNext (.stmt hbound .done) rfl (.listHalts (.stmtHalts hrefused)), _,
      .tail _ (.tail _ (.tail _ (.tail _ (.head _)))), rfl, rfl⟩
  have hsole : AssignsSole setsText e.start := by
    intro x hx
    cases hx
    rw [hstart]
    exact Nat.le_refl _
  obtain ⟨visit, hvisit, hstmt, hagrees⟩ := (hruns _ _ _ _ hrun e he _ hs).1
  exact ⟨rfl, ⟨_, _, heval, htypes _ _ _ _ _ _ rfl heval⟩, hrefusals, by decide +kernel,
    by decide +kernel, trace, r, hrun, e, he, hs, hsole, visit, hvisit, hstmt, hagrees hsole⟩

/-- The script `int x = 1; string x = "a"; x = "b"; x`. -/
def redeclared : Program where
  statements :=
    [.declare ⟨0, 10⟩ .int ⟨"x", ⟨4, 5⟩⟩ (some (.literal ⟨8, 9⟩ (.int 1))),
      .declare ⟨11, 26⟩ .string ⟨"x", ⟨18, 19⟩⟩ (some (.literal ⟨22, 25⟩ (.string "a"))),
      .assign ⟨27, 35⟩ ⟨"x", ⟨27, 28⟩⟩ [] .set (.literal ⟨31, 34⟩ (.string "b"))]
  tail := some (.name ⟨36, 37⟩ "x")

/-- To the checks its assignment is one to the first variable, which takes no string. The run
assigns to the second one, and ends with the string. -/
theorem refused_yet_assigned :
    ⟨.typeMismatch "string" .int, ⟨31, 34⟩⟩ ∈ Script.check redeclared ∧
      (∃ trace r, RunsOf (.untimed ⟨100, 1000, 10⟩) redeclared (.fresh true) trace r ∧
        ∃ e ∈ trace, e.task = .stmt (.assign ⟨27, 35⟩ ⟨"x", ⟨27, 28⟩⟩ [] .set
            (.literal ⟨31, 34⟩ (.string "b"))) ∧
          ∃ m, e.result = .ok .normal m) ∧
      (run (.untimed ⟨100, 1000, 10⟩) redeclared (.fresh true)).result =
        .ok (some (.string "b")) := by
  refine ⟨by decide +kernel, ?_, rfl⟩
  have hfirst : begin (.untimed ⟨100, 1000, 10⟩)
        (.declare ⟨0, 10⟩ .int ⟨"x", ⟨4, 5⟩⟩ (some (.literal ⟨8, 9⟩ (.int 1))))
        (.start (.fresh true)) =
      .ok (.done .normal) ⟨2, [[⟨"x", .int, .int 1⟩]], .fresh true⟩ := rfl
  have hsecond : begin (.untimed ⟨100, 1000, 10⟩)
        (.declare ⟨11, 26⟩ .string ⟨"x", ⟨18, 19⟩⟩ (some (.literal ⟨22, 25⟩ (.string "a"))))
        ⟨2, [[⟨"x", .int, .int 1⟩]], .fresh true⟩ =
      .ok (.done .normal)
        ⟨4, [[⟨"x", .string, .string "a"⟩, ⟨"x", .int, .int 1⟩]], .fresh true⟩ := rfl
  have hassigned : begin (.untimed ⟨100, 1000, 10⟩)
        (.assign ⟨27, 35⟩ ⟨"x", ⟨27, 28⟩⟩ [] .set (.literal ⟨31, 34⟩ (.string "b")))
        ⟨4, [[⟨"x", .string, .string "a"⟩, ⟨"x", .int, .int 1⟩]], .fresh true⟩ =
      .ok (.done .normal)
        ⟨6, [[⟨"x", .string, .string "b"⟩, ⟨"x", .int, .int 1⟩]], .fresh true⟩ := rfl
  exact ⟨_, _, .listNext (.stmt hfirst .done) rfl (.listNext (.stmt hsecond .done) rfl
      (.listNext (.stmt hassigned .done) rfl .listEnds)), _,
    .tail _ (.tail _ (.tail _ (.tail _ (.tail _ (.tail _ (.tail _ (.head _))))))), rfl, _, rfl⟩

end Snippet.Run
