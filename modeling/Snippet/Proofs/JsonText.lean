import Snippet.Instant
import Snippet.Json.Reader
import Snippet.Json.Writer

/-!
# Reading back compact JSON

The compact form of a value is cut into the tokens that the value is written in
(`tokensFrom_compact`), and these lead the machine to the value (`Machine.take?_written`). So the
value is read back (`parseBounded?_compact`) if it `Fits`: its integers have literals of their own,
it does not open more arrays and objects at once than the machine allows, and it has no doubles,
which are scaled in double arithmetic when they are read.

A token ends where the next one starts. Only a number needs to be told so, as its digits might go
on: what may stand behind it is said by `EndsNumber`.
-/

namespace Snippet.Json

/-! ### Strings -/

section Strings

variable {tail : List Char}

/-- A control character is written by its number. -/
theorem hex4?_hexDigit :
    ∀ n < 32, hex4? '0' '0' (hexDigit (n / 16)) (hexDigit (n % 16)) = some n := by
  decide

/-- A character that is not escaped stands for itself. -/
theorem stringBody?_cons {c : Char} (hquote : c ≠ '"') (hslash : c ≠ '\\')
    (hcontrol : ¬ c.toNat < 0x20) (tail : List Char) :
    stringBody? (c :: tail) =
      (stringBody? tail).map fun (body, length) ↦ (c :: body, length + 1) := by
  rw [stringBody?.eq_def]
  split
  · next h => exact absurd (List.cons.inj h).1 hquote
  · next h => exact absurd (List.cons.inj h).1 hslash
  · next h => exact absurd (List.cons.inj h).1 hslash
  · next h =>
    obtain ⟨rfl, rfl⟩ := List.cons.inj h
    exact if_neg (not_or.2 ⟨hcontrol, hslash⟩)
  · next h => cases h

/-- A character written by its number is read so. -/
theorem stringBody?_unicode {a b c d : Char} {n : Nat} (h : hex4? a b c d = some n)
    (hn : n < 0xd800) (tail : List Char) :
    stringBody? ('\\' :: 'u' :: a :: b :: c :: d :: tail) =
      (stringBody? tail).map fun (body, length) ↦ (Char.ofNat n :: body, length + 6) := by
  rw [stringBody?]
  simp only [h]
  rw [if_neg (by omega), if_neg (by omega)]

theorem stringBody?_escapeChar (c : Char) (tail : List Char) :
    stringBody? (escapeChar c ++ tail) =
      (stringBody? tail).map fun (body, length) ↦ (c :: body, length + (escapeChar c).length) := by
  rw [escapeChar.eq_def]
  split
  case h_8 _ hquote hslash _ _ _ _ _ =>
    split
    · next hcontrol =>
      have hcontrol : c.toNat < 32 := hcontrol
      have hread := stringBody?_unicode (hex4?_hexDigit c.toNat hcontrol) (by omega) tail
      rwa [Char.ofNat_toNat] at hread
    · next hcontrol =>
      rw [List.singleton_append]
      exact stringBody?_cons hquote hslash hcontrol tail
  all_goals
    rw [List.cons_append, List.singleton_append, stringBody?.eq_def]
    rfl

/-- The body of a string is read back up to its closing quote. -/
theorem stringBody?_flatMap (body tail : List Char) :
    stringBody? (body.flatMap escapeChar ++ '"' :: tail) =
      some (body, (body.flatMap escapeChar).length + 1) := by
  induction body with
  | nil => rw [List.flatMap_nil, List.nil_append, stringBody?.eq_def]; rfl
  | cons c body ih =>
    rw [List.flatMap_cons, List.append_assoc, stringBody?_escapeChar, ih, List.length_append]
    refine congrArg (fun n ↦ some (c :: body, n)) ?_
    omega

end Strings

/-! ### Numbers -/

/-- What stands behind a number and ends it. -/
def EndsNumber (tail : List Char) : Prop :=
  ∀ c ∈ tail.head?, c.isDigit = false ∧ c ≠ '.' ∧ c ≠ 'e' ∧ c ≠ 'E'

section Numbers

variable {n : Nat} {tail digits : List Char}

/-- A number other than zero does not start with a zero. -/
theorem head?_toDigits_ne (hn : 0 < n) : (Nat.toDigits 10 n).head? ≠ some '0' := by
  induction n using Nat.strongRecOn with
  | ind n ih =>
    by_cases hlt : n < 10
    · rw [Nat.toDigits_of_lt_base hlt]
      have hall : ∀ d < 10, 0 < d → [Nat.digitChar d].head? ≠ some '0' := by decide
      exact hall n hlt hn
    · rw [Nat.toDigits_of_base_le (by decide) (by omega),
        List.head?_append, Option.or_of_isSome (List.isSome_head?.2 Nat.toDigits_ne_nil)]
      exact ih (n / 10) (by omega) (by omega)

/-- A number that fits a word is taken as a whole. -/
theorem absorb_eq (n : Nat) (digits : List Char)
    (h : Nat.ofDigitChars 10 digits n < UInt64.size) :
    absorb n digits = (Nat.ofDigitChars 10 digits n, digits.length) := by
  induction digits generalizing n with
  | nil => rfl
  | cons c digits ih =>
    rw [Nat.ofDigitChars_cons] at h ⊢
    have hle : 10 * n + (c.toNat - '0'.toNat) ≤
        Nat.ofDigitChars 10 digits (10 * n + (c.toNat - '0'.toNat)) := by
      rw [Nat.ofDigitChars_eq_ofDigitChars_zero]
      exact Nat.le_add_right_of_le (Nat.le_mul_of_pos_left _ (Nat.pow_pos (by decide)))
    rw [absorb, if_pos (Nat.lt_of_le_of_lt hle h), ih _ h]
    rfl

theorem digitsAt_append (hdigits : ∀ c ∈ digits, c.isDigit = true) (htail : EndsNumber tail) :
    digitsAt (digits ++ tail) = digits := by
  rw [digitsAt, List.takeWhile_append_of_pos hdigits]
  cases tail with
  | nil => rw [List.takeWhile_nil, List.append_nil]
  | cons c tail =>
    rw [List.takeWhile_cons_of_neg (Bool.eq_false_iff.1 (htail c rfl).1), List.append_nil]

theorem exponentAt?_eq (htail : EndsNumber tail) : exponentAt? tail = some (none, 0) := by
  cases tail with
  | nil => rfl
  | cons c tail =>
    obtain ⟨-, -, he, hE⟩ := htail c rfl
    exact if_neg (not_or.2 ⟨he, hE⟩)

/-- No more digits follow a leading zero. -/
theorem toDigits_ne_zero_cons (n : Nat) (c : Char) (digits : List Char) :
    Nat.toDigits 10 n ≠ '0' :: c :: digits := by
  intro h
  obtain rfl | hn := Nat.eq_zero_or_pos n
  · cases h
  · exact head?_toDigits_ne hn (by rw [h]; rfl)

/-- The digits of a number are read up to what ends it, behind a sign if there is one. -/
theorem scan?_eq {s : List Char} {negative : Bool} (n : Nat)
    (hsign : (s.head? == some '-') = negative)
    (hs : (if negative then s.drop 1 else s) = Nat.toDigits 10 n ++ tail)
    (htail : EndsNumber tail) :
    Literal.scan? s = some ⟨negative, Nat.toDigits 10 n, none, none,
      (if negative then 1 else 0) + (Nat.toDigits 10 n).length⟩ := by
  have hne : Nat.toDigits 10 n ≠ [] := Nat.toDigits_ne_nil
  have hzero := toDigits_ne_zero_cons n
  have hat : digitsAt (Nat.toDigits 10 n ++ tail) = Nat.toDigits 10 n :=
    digitsAt_append (fun c ↦ Nat.isDigit_of_mem_toDigits (by decide) (by decide)) htail
  have hpoint (rest : List Char) : tail ≠ '.' :: rest := by
    rintro rfl
    exact (htail '.' rfl).2.1 rfl
  -- the digits are no lone sign and have no zero in front, and no point follows
  simp only [Literal.scan?, hsign, hs, hat, List.drop_left]
  rw [Option.bind_eq_bind, Option.bind_some, exponentAt?_eq htail]
  rfl

/-- The integers that have a literal. -/
def IntFits (n : Int) : Prop :=
  -(intBound : Int) ≤ n ∧ n < UInt64.size

theorem value?_toDigits (negative : Bool) (n : Nat) (length : Nat)
    (hfits : IntFits (if negative then -n else n)) (hzero : negative = true → 0 < n) :
    Literal.value? ⟨negative, Nat.toDigits 10 n, none, none, length⟩ =
      some (.int (if negative then -n else n)) := by
  have hbound : intBound < UInt64.size := by decide
  have hread (h : n < UInt64.size) :
      absorb 0 (Nat.toDigits 10 n) = (n, (Nat.toDigits 10 n).length) := by
    have heq : Nat.ofDigitChars 10 (Nat.toDigits 10 n) 0 = n := Nat.ofDigitChars_ten_toDigits
    rw [absorb_eq 0 _ (by rwa [heq]), heq]
  cases negative with
  | false =>
    have hlt : (n : Int) < UInt64.size := hfits.2
    rw [Literal.value?, hread (by omega)]
    exact if_pos (Nat.sub_self _)
  | true =>
    have hleast : -(intBound : Int) ≤ -(n : Int) := hfits.1
    have hpos := hzero rfl
    rw [Literal.value?, hread (by omega)]
    dsimp only
    rw [if_pos (Nat.sub_self _), if_neg (by decide), if_neg (by omega)]
    rfl

end Numbers

/-! ### Tokens -/

section Tokens

variable {tail : List Char} {c : Char} {token : Token}

theorem tokensFrom_inside (n : Nat) (s : List Char) : tokensFrom n s = tokensFrom 0 (s.drop n) := by
  induction s generalizing n with
  | nil => rw [List.drop_nil, tokensFrom, tokensFrom]
  | cons c s ih =>
    cases n with
    | zero => rfl
    | succ n => rw [tokensFrom, ih, List.drop_succ_cons]

/-- The token of a lexeme stands in front of those of the text behind it. -/
theorem tokensFrom_lexeme (cs : List Char) (hblank : ¬ (c = ' ' ∨ c = '\t' ∨ c = '\n' ∨ c = '\r'))
    (h : tokenAt c (cs ++ tail) = (token, cs.length + 1)) (hbad : token ≠ .bad) :
    tokensFrom 0 (c :: cs ++ tail) = token :: tokensFrom 0 tail := by
  rw [List.cons_append, tokensFrom, if_neg hblank, h]
  cases token with
  | bad => exact absurd rfl hbad
  | _ =>
    refine congrArg _ ((tokensFrom_inside _ _).trans ?_)
    rw [Nat.add_sub_cancel, List.drop_left]

theorem tokensFrom_punct (h : c ∈ ['[', ']', '\x7b', '\x7d', ',', ':']) (tail : List Char) :
    tokensFrom 0 (c :: tail) = .punct c :: tokensFrom 0 tail := by
  simp only [List.mem_cons, List.not_mem_nil, or_false] at h
  obtain rfl | rfl | rfl | rfl | rfl | rfl := h <;>
    exact tokensFrom_lexeme [] (by decide) rfl nofun

theorem tokensFrom_quote (s : String) (tail : List Char) :
    tokensFrom 0 ((quote s).toList ++ tail) = .text s :: tokensFrom 0 tail := by
  have hquote : (quote s).toList = '"' :: (s.toList.flatMap escapeChar ++ ['"']) := by
    simp only [quote, String.toList_append, String.toList_ofList]
    rfl
  rw [hquote]
  refine tokensFrom_lexeme _ (by decide) ?_ nofun
  rw [List.append_assoc, List.singleton_append, tokenAt.eq_def]
  dsimp only
  rw [stringBody?_flatMap]
  dsimp only
  rw [String.ofList_toList, List.length_append, List.length_singleton]
  rfl

/-- A text that starts with a digit or a minus is a number. -/
theorem tokenAt_number {rest : List Char} {l : Literal} {value : Json}
    (hc : c.isDigit = true ∨ c = '-') (hscan : Literal.scan? (c :: rest) = some l)
    (hvalue : l.value? = some value) : tokenAt c rest = (.scalar value, l.length) := by
  rw [tokenAt.eq_def]
  dsimp only
  split
  case h_11 => simp only [hscan, hvalue]
  all_goals
    obtain hc | hc := hc
    · exact absurd hc (by decide)
    · exact absurd hc (by decide)

theorem tokensFrom_number {cs : List Char} {l : Literal} {value : Json}
    (hc : c.isDigit = true ∨ c = '-')
    (hscan : Literal.scan? (c :: cs ++ tail) = some l) (hlength : l.length = cs.length + 1)
    (hvalue : l.value? = some value) :
    tokensFrom 0 (c :: cs ++ tail) = .scalar value :: tokensFrom 0 tail := by
  refine tokensFrom_lexeme cs ?_ ((tokenAt_number hc hscan hvalue).trans (by rw [hlength])) nofun
  rintro (rfl | rfl | rfl | rfl) <;> exact absurd hc (by decide)

theorem tokensFrom_int {n : Int} (h : IntFits n) (htail : EndsNumber tail) :
    tokensFrom 0 ((toString n).toList ++ tail) = .scalar (.int n) :: tokensFrom 0 tail := by
  rw [Int.toString_eq_repr, Int.repr_eq_if]
  split
  · next hn =>
    obtain ⟨n, rfl⟩ := Int.eq_ofNat_of_zero_le hn
    obtain ⟨c, digits, hdigits⟩ :=
      List.exists_cons_of_ne_nil (Nat.toDigits_ne_nil (n := n) (b := 10))
    have hc : c.isDigit = true :=
      Nat.isDigit_of_mem_toDigits (by decide) (by decide) (hdigits ▸ List.mem_cons_self)
    have hsign : ((Nat.toDigits 10 n ++ tail).head? == some '-') = false := by
      rw [hdigits]
      refine beq_eq_false_iff_ne.2 fun heq ↦ ?_
      rw [Option.some.inj heq] at hc
      exact absurd hc (by decide)
    have hscan := scan?_eq n hsign rfl htail
    have hvalue := value?_toDigits false n (0 + (Nat.toDigits 10 n).length) h nofun
    rw [Int.toNat_natCast, Nat.toList_repr]
    rw [hdigits] at hscan hvalue ⊢
    exact tokensFrom_number (.inl hc) hscan (Nat.zero_add _) hvalue
  · next hn =>
    obtain ⟨n, hpos, rfl⟩ : ∃ m : Nat, 0 < m ∧ n = -(m : Int) := ⟨n.natAbs, by omega, by omega⟩
    have hscan := scan?_eq (s := '-' :: Nat.toDigits 10 n ++ tail) n rfl rfl htail
    have hvalue := value?_toDigits true n (1 + (Nat.toDigits 10 n).length) h fun _ ↦ hpos
    rw [String.toList_append, Int.neg_neg, Int.toNat_natCast, Nat.toList_repr]
    exact tokensFrom_number (.inr rfl) hscan (Nat.add_comm _ _) hvalue

end Tokens

/-! ### The tokens of a value -/

mutual

/-- A value without doubles, of which the integers have a literal. -/
def Plain : Json → Prop
  | .float _ => False
  | .int n => IntFits n
  | .array items => PlainItems items
  | .object members => PlainMembers members
  | _ => True

def PlainItems : List Json → Prop
  | [] => True
  | j :: rest => j.Plain ∧ PlainItems rest

def PlainMembers : List (String × Json) → Prop
  | [] => True
  | (_, j) :: rest => j.Plain ∧ PlainMembers rest

end

mutual

/-- The tokens that a value is written in. -/
def written : Json → List Token
  | .string s => [.text s]
  | .array items => .punct '[' :: (writtenItems items ++ [.punct ']'])
  | .object members => .punct '\x7b' :: (writtenMembers members ++ [.punct '\x7d'])
  | j => [.scalar j]

/-- Those of the items of an array, with commas between them. -/
def writtenItems : List Json → List Token
  | [] => []
  | [j] => j.written
  | j :: rest => j.written ++ .punct ',' :: writtenItems rest

/-- Those of the members of an object. -/
def writtenMembers : List (String × Json) → List Token
  | [] => []
  | [(name, j)] => .text name :: .punct ':' :: j.written
  | (name, j) :: rest =>
    .text name :: .punct ':' :: (j.written ++ .punct ',' :: writtenMembers rest)

end

theorem writtenItems_cons_cons (j j' : Json) (rest : List Json) :
    writtenItems (j :: j' :: rest) = j.written ++ .punct ',' :: writtenItems (j' :: rest) :=
  writtenItems.eq_3 j (j' :: rest) nofun

theorem writtenMembers_cons_cons (name : String) (j : Json) (m : String × Json)
    (rest : List (String × Json)) :
    writtenMembers ((name, j) :: m :: rest) =
      .text name :: .punct ':' :: (j.written ++ .punct ',' :: writtenMembers (m :: rest)) :=
  writtenMembers.eq_3 name j (m :: rest) nofun

theorem compactItems_cons_cons (j j' : Json) (rest : List Json) :
    compactItems (j :: j' :: rest) = j.compact ++ "," ++ compactItems (j' :: rest) :=
  compactItems.eq_3 j (j' :: rest) nofun

theorem compactMembers_cons_cons (name : String) (j : Json) (m : String × Json)
    (rest : List (String × Json)) :
    compactMembers ((name, j) :: m :: rest) =
      quote name ++ ":" ++ j.compact ++ "," ++ compactMembers (m :: rest) :=
  compactMembers.eq_3 name j (m :: rest) nofun

theorem endsNumber_punct {c : Char} (h : c ∈ [']', '\x7d', ',']) (tail : List Char) :
    EndsNumber (c :: tail) := by
  simp only [List.mem_cons, List.not_mem_nil, or_false] at h
  rintro _ ⟨⟩
  obtain rfl | rfl | rfl := h <;> decide

mutual

/-- A value is cut into its tokens, with those of the text behind it. -/
theorem tokensFrom_compact : ∀ j : Json, j.Plain → ∀ tail, EndsNumber tail →
    tokensFrom 0 (j.compact.toList ++ tail) = j.written ++ tokensFrom 0 tail
  | .null, _, tail, _ => tokensFrom_lexeme ['u', 'l', 'l'] (by decide) rfl nofun
  | .bool true, _, tail, _ => tokensFrom_lexeme ['r', 'u', 'e'] (by decide) rfl nofun
  | .bool false, _, tail, _ => tokensFrom_lexeme ['a', 'l', 's', 'e'] (by decide) rfl nofun
  | .int _, h, _, htail => tokensFrom_int h htail
  | .float _, h, _, _ => h.elim
  | .string s, _, tail, _ => tokensFrom_quote s tail
  | .array items, h, tail, _ => by
    have hitems := tokensFrom_compactItems items h (']' :: tail) (endsNumber_punct (by decide) tail)
    have htext : (Json.array items).compact.toList ++ tail =
        '[' :: ((compactItems items).toList ++ ']' :: tail) := by
      rw [compact, String.toList_append, String.toList_append, List.append_assoc]
      rfl
    rw [htext, tokensFrom_punct (by decide), hitems, tokensFrom_punct (by decide), written,
      List.cons_append, List.append_assoc]
    rfl
  | .object members, h, tail, _ => by
    have hmembers :=
      tokensFrom_compactMembers members h ('\x7d' :: tail) (endsNumber_punct (by decide) tail)
    have htext : (Json.object members).compact.toList ++ tail =
        '\x7b' :: ((compactMembers members).toList ++ '\x7d' :: tail) := by
      rw [compact, String.toList_append, String.toList_append, List.append_assoc]
      rfl
    rw [htext, tokensFrom_punct (by decide), hmembers, tokensFrom_punct (by decide), written,
      List.cons_append, List.append_assoc]
    rfl

theorem tokensFrom_compactItems : ∀ items : List Json, PlainItems items → ∀ tail, EndsNumber tail →
    tokensFrom 0 ((compactItems items).toList ++ tail) = writtenItems items ++ tokensFrom 0 tail
  | [], _, _, _ => rfl
  | [j], h, tail, htail => tokensFrom_compact j h.1 tail htail
  | j :: j' :: rest, h, tail, htail => by
    have hrest := tokensFrom_compactItems (j' :: rest) h.2 tail htail
    have hj := tokensFrom_compact j h.1 (',' :: ((compactItems (j' :: rest)).toList ++ tail))
      (endsNumber_punct (by decide) _)
    have htext : (compactItems (j :: j' :: rest)).toList ++ tail =
        j.compact.toList ++ ',' :: ((compactItems (j' :: rest)).toList ++ tail) := by
      rw [compactItems_cons_cons, String.toList_append, String.toList_append, List.append_assoc,
        List.append_assoc]
      rfl
    rw [htext, hj, tokensFrom_punct (by decide), hrest, writtenItems_cons_cons, List.append_assoc]
    rfl

theorem tokensFrom_compactMembers : ∀ members : List (String × Json), PlainMembers members →
    ∀ tail, EndsNumber tail →
      tokensFrom 0 ((compactMembers members).toList ++ tail) =
        writtenMembers members ++ tokensFrom 0 tail
  | [], _, _, _ => rfl
  | [(name, j)], h, tail, htail => by
    have hj := tokensFrom_compact j h.1 tail htail
    have htext : (compactMembers [(name, j)]).toList ++ tail =
        (quote name).toList ++ ':' :: (j.compact.toList ++ tail) := by
      rw [compactMembers, String.toList_append, String.toList_append, List.append_assoc,
        List.append_assoc]
      rfl
    rw [htext, tokensFrom_quote, tokensFrom_punct (by decide), hj]
    rfl
  | (name, j) :: m :: rest, h, tail, htail => by
    have hrest := tokensFrom_compactMembers (m :: rest) h.2 tail htail
    have hj := tokensFrom_compact j h.1 (',' :: ((compactMembers (m :: rest)).toList ++ tail))
      (endsNumber_punct (by decide) _)
    have htext : (compactMembers ((name, j) :: m :: rest)).toList ++ tail =
        (quote name).toList ++ ':' :: (j.compact.toList ++
          ',' :: ((compactMembers (m :: rest)).toList ++ tail)) := by
      simp only [compactMembers_cons_cons, String.toList_append, List.append_assoc]
      rfl
    rw [htext, tokensFrom_quote, tokensFrom_punct (by decide), hj, tokensFrom_punct (by decide),
      hrest, writtenMembers_cons_cons, List.cons_append, List.cons_append, List.append_assoc]
    rfl

end

/-! ### The machine -/

mutual

/-- How many arrays and objects are open at once in a value. -/
def levels : Json → Nat
  | .array items => levelsOfItems items + 1
  | .object members => levelsOfMembers members + 1
  | _ => 0

def levelsOfItems : List Json → Nat
  | [] => 0
  | j :: rest => max j.levels (levelsOfItems rest)

def levelsOfMembers : List (String × Json) → Nat
  | [] => 0
  | (_, j) :: rest => max j.levels (levelsOfMembers rest)

end

namespace Machine

variable {m : Machine} {frames : List Frame} {phase : Phase}

/-- Takes one token, unless that opens too many frames. -/
def boundedStep? (m : Machine) (token : Token) : Option Machine :=
  (m.step? token).filter (·.frames.length ≤ maxLevels)

/-- Takes some tokens so. -/
def take? (m : Machine) (ts : List Token) : Option Machine :=
  ts.foldlM boundedStep? m

theorem take?_cons {t : Token} (m' : Machine) (hstep : m.step? t = some m')
    (h : m'.frames.length ≤ maxLevels) (ts : List Token) : m.take? (t :: ts) = m'.take? ts := by
  have hbounded : m.boundedStep? t = some m' := by
    rw [boundedStep?, hstep, Option.filter_some, if_pos (decide_eq_true h)]
  rw [take?, List.foldlM_cons, hbounded]
  rfl

@[simp]
theorem length_frames_put (value : Json) (frames : List Frame) :
    (put value frames).frames.length = frames.length := by
  cases frames with
  | nil => rfl
  | cons frame frames => cases frame <;> rfl

/-- A value may come next. -/
def AwaitsValue (phase : Phase) : Prop :=
  phase = .value ∨ phase = .valueOrClose

/-- The name of a member may come next. -/
def AwaitsName (phase : Phase) : Prop :=
  phase = .name ∨ phase = .nameOrClose

theorem take?_scalar {j : Json} (h : frames.length ≤ maxLevels) (hphase : AwaitsValue phase)
    (ts : List Token) : take? ⟨frames, phase⟩ (.scalar j :: ts) = (put j frames).take? ts := by
  refine take?_cons (put _ frames) ?_ (by rwa [length_frames_put]) ts
  obtain rfl | rfl := hphase <;> rfl

/-- The name of a member leads to its value. -/
theorem take?_name {members : List (String × Json)} {name name' : String}
    (h : frames.length + 1 ≤ maxLevels) (hphase : AwaitsName phase) (ts : List Token) :
    take? ⟨.object members name :: frames, phase⟩ (.text name' :: .punct ':' :: ts) =
      take? ⟨.object members name' :: frames, .value⟩ ts := by
  refine (take?_cons ⟨.object members name' :: frames, .colon⟩ ?_ h _).trans
    (take?_cons ⟨.object members name' :: frames, .value⟩ rfl h ts)
  obtain rfl | rfl := hphase <;> rfl

mutual

/-- A value is complete behind its tokens. -/
theorem take?_written : ∀ (j : Json) (frames : List Frame) (phase : Phase),
    frames.length + j.levels ≤ maxLevels → AwaitsValue phase → ∀ ts,
      take? ⟨frames, phase⟩ (j.written ++ ts) = (put j frames).take? ts
  | .null, _, _, h, hphase, ts => take?_scalar h hphase ts
  | .bool _, _, _, h, hphase, ts => take?_scalar h hphase ts
  | .int _, _, _, h, hphase, ts => take?_scalar h hphase ts
  | .float _, _, _, h, hphase, ts => take?_scalar h hphase ts
  | .string s, frames, _, h, hphase, ts => by
    refine take?_cons (put _ frames) ?_ (by rwa [length_frames_put]) ts
    obtain rfl | rfl := hphase <;> rfl
  | .array items, frames, phase, h, hphase, ts => by
    rw [levels] at h
    have hopen : (Frame.array [] :: frames).length ≤ maxLevels := by
      rw [List.length_cons]
      omega
    rw [written, List.cons_append, List.append_assoc,
      take?_cons ⟨.array [] :: frames, .valueOrClose⟩ (by obtain rfl | rfl := hphase <;> rfl)
        hopen]
    have hclose : (put (.array items) frames).frames.length ≤ maxLevels := by
      rw [length_frames_put]
      omega
    cases items with
    | nil => exact take?_cons _ rfl hclose ts
    | cons j rest =>
      rw [take?_writtenItems (j :: rest) [] frames .valueOrClose (by omega) (.inr rfl) nofun]
      refine take?_cons _ ?_ hclose ts
      rw [List.append_nil]
      show some (put (.array (j :: rest).reverse.reverse) frames) = _
      rw [List.reverse_reverse]
  | .object members, frames, phase, h, hphase, ts => by
    rw [levels] at h
    have hopen : (Frame.object [] "" :: frames).length ≤ maxLevels := by
      rw [List.length_cons]
      omega
    rw [written, List.cons_append, List.append_assoc,
      take?_cons ⟨.object [] "" :: frames, .nameOrClose⟩ (by obtain rfl | rfl := hphase <;> rfl)
        hopen]
    have hclose : (put (.object members) frames).frames.length ≤ maxLevels := by
      rw [length_frames_put]
      omega
    cases members with
    | nil => exact take?_cons _ rfl hclose ts
    | cons member rest =>
      rw [take?_writtenMembers (member :: rest) [] "" frames .nameOrClose (by omega) (.inr rfl)
        nofun]
      refine take?_cons _ ?_ hclose ts
      rw [List.append_nil]
      show some (put (.object (member :: rest).reverse.reverse) frames) = _
      rw [List.reverse_reverse]

/-- Items are added to the array that is open. -/
theorem take?_writtenItems : ∀ (items acc : List Json) (frames : List Frame) (phase : Phase),
    frames.length + 1 + levelsOfItems items ≤ maxLevels → AwaitsValue phase → items ≠ [] → ∀ ts,
      take? ⟨.array acc :: frames, phase⟩ (writtenItems items ++ ts) =
        take? ⟨.array (items.reverse ++ acc) :: frames, .commaOrClose⟩ ts
  | [], _, _, _, _, _, hne, _ => absurd rfl hne
  | [j], acc, frames, phase, h, hphase, _, ts => by
    rw [levelsOfItems] at h
    exact take?_written j (.array acc :: frames) phase (by rw [List.length_cons]; omega) hphase ts
  | j :: j' :: rest, acc, frames, phase, h, hphase, _, ts => by
    rw [levelsOfItems] at h
    have hrest := take?_writtenItems (j' :: rest) (j :: acc) frames .value (by omega) (.inl rfl)
      nofun ts
    have hj := take?_written j (.array acc :: frames) phase (by rw [List.length_cons]; omega) hphase
    rw [writtenItems_cons_cons, List.append_assoc, hj, List.cons_append,
      take?_cons ⟨.array (j :: acc) :: frames, .value⟩ rfl (by rw [List.length_cons]; omega),
      hrest, @List.reverse_cons _ j, List.append_assoc]
    rfl

/-- And members to the object. -/
theorem take?_writtenMembers : ∀ (members acc : List (String × Json)) (name : String)
    (frames : List Frame) (phase : Phase),
    frames.length + 1 + levelsOfMembers members ≤ maxLevels → AwaitsName phase → members ≠ [] →
      ∀ ts, take? ⟨.object acc name :: frames, phase⟩ (writtenMembers members ++ ts) =
        take? ⟨.object (members.reverse ++ acc) "" :: frames, .commaOrClose⟩ ts
  | [], _, _, _, _, _, _, hne, _ => absurd rfl hne
  | [(name', j)], acc, name, frames, phase, h, hphase, _, ts => by
    rw [levelsOfMembers] at h
    have hj := take?_written j (.object acc name' :: frames) .value
      (by rw [List.length_cons]; omega) (.inl rfl) ts
    exact (take?_name (by omega) hphase _).trans hj
  | (name', j) :: m :: rest, acc, name, frames, phase, h, hphase, _, ts => by
    rw [levelsOfMembers] at h
    have hrest := take?_writtenMembers (m :: rest) ((name', j) :: acc) "" frames .name (by omega)
      (.inl rfl) nofun ts
    have hj := take?_written j (.object acc name' :: frames) .value
      (by rw [List.length_cons]; omega) (.inl rfl)
    rw [writtenMembers_cons_cons, List.cons_append, List.cons_append,
      take?_name (by omega) hphase, List.append_assoc, hj, List.cons_append,
      take?_cons ⟨.object ((name', j) :: acc) "" :: frames, .name⟩ rfl
        (by rw [List.length_cons]; omega),
      hrest, @List.reverse_cons _ (name', j), List.append_assoc]
    rfl

end

end Machine

theorem parseBounded?_eq (s : String) :
    parseBounded? s =
      match Machine.start.take? (tokens s) with
      | some ⟨_, .done value⟩ => some value
      | _ => none :=
  rfl

/-- A value that can be read back from its text: it is plain, and this many arrays and objects are
open at once at the most. -/
structure Fits (n : Nat) (j : Json) : Prop where
  plain : j.Plain
  levels_le : j.levels ≤ n

namespace Fits

variable {n : Nat}

theorem string (n : Nat) (s : String) : Fits n (.string s) :=
  ⟨trivial, Nat.zero_le n⟩

theorem bool (n : Nat) (b : Bool) : Fits n (.bool b) :=
  ⟨trivial, Nat.zero_le n⟩

theorem int {i : Int} (n : Nat) (h : IntFits i) : Fits n (.int i) :=
  ⟨h, Nat.zero_le n⟩

theorem array {items : List Json} (h : ∀ j ∈ items, Fits n j) : Fits (n + 1) (.array items) := by
  suffices hitems : PlainItems items ∧ levelsOfItems items ≤ n from
    ⟨hitems.1, Nat.succ_le_succ hitems.2⟩
  induction items with
  | nil => exact ⟨trivial, Nat.zero_le n⟩
  | cons j rest ih =>
    obtain ⟨hj, hrest⟩ := List.forall_mem_cons.1 h
    obtain ⟨hplain, hlevels⟩ := ih hrest
    exact ⟨⟨hj.plain, hplain⟩, Nat.max_le.2 ⟨hj.levels_le, hlevels⟩⟩

theorem object {members : List (String × Json)} (h : ∀ m ∈ members, Fits n m.2) :
    Fits (n + 1) (.object members) := by
  suffices hmembers : PlainMembers members ∧ levelsOfMembers members ≤ n from
    ⟨hmembers.1, Nat.succ_le_succ hmembers.2⟩
  induction members with
  | nil => exact ⟨trivial, Nat.zero_le n⟩
  | cons m rest ih =>
    obtain ⟨hm, hrest⟩ := List.forall_mem_cons.1 h
    obtain ⟨hplain, hlevels⟩ := ih hrest
    exact ⟨⟨hm.plain, hplain⟩, Nat.max_le.2 ⟨hm.levels_le, hlevels⟩⟩

end Fits

/-- A value is read back from its compact form. -/
theorem parseBounded?_compact {j : Json} (h : j.Fits maxLevels) :
    parseBounded? j.compact = some j := by
  have hend : EndsNumber [] := nofun
  have htokens : tokens j.compact = j.written ++ [] := by
    have hcompact := tokensFrom_compact j h.plain [] hend
    rwa [List.append_nil] at hcompact
  have htake : Machine.start.take? (j.written ++ []) = (Machine.put j []).take? [] :=
    Machine.take?_written j [] .value ((Nat.zero_add _).symm ▸ h.levels_le) (.inl rfl) []
  rw [parseBounded?_eq, htokens, htake]
  rfl

end Snippet.Json
