import Snippet.Proofs.ClosingBracket
import Snippet.Proofs.PlacedMatches

/-!
# Matching in front of a bracket

What a phrase of the grammar finds in a text, it also finds where the text stands in parentheses,
with the places moved (`found_in_brackets`). The closing bracket must be a part of the code, and the
text must close every bracket it opens: then no token goes on into the bracket, and neither does a
pattern that closes what it opens, since it would end below the depth it starts at
(`Abreast.eq_none`). That is what an alternative, an optional part or a repetition needs, where
nothing is found in the text (`Steady`). Matching on the two texts is followed step by step
(`carried_answer`), by induction along the recursion of `Language.run`.

Compared with itself, a text also shows that what is found there does not depend on what has been
tried (`exists_found`).
-/

namespace Snippet.Script

open Grammar

/-! ### Patterns -/

/-- Whether the alternatives of a pattern close the brackets they open, and the pattern does not
look for the end of the text. -/
def isSteady : Pattern Symbol → Bool
  | .text _ => true
  | .call symbol => symbol != .ending && symbol != .program
  | .seq a b => isSteady a && isSteady b
  | .choice a b => patternDepth a 0 == some 0 && isSteady a && isSteady b
  | .optional a | .many a => isSteady a
  | .absent _ => false

theorem isSteady_of_rule {symbol : Symbol} {body : Pattern Symbol}
    (h : language.rule symbol = .phrase true body) (hsymbol : symbol ≠ .program) :
    isSteady body = true := by
  cases symbol <;> cases h
  case program => exact absurd rfl hsymbol
  all_goals rfl

/-- A pattern that takes the brackets from one depth to another, none of whose alternatives depends
on a bracket behind the text. -/
structure Steady (p : Pattern Symbol) (d e : Nat) : Prop where
  isSteady : isSteady p = true
  texts : p.TextsIn Plain
  depth : patternDepth p d = some e

namespace Steady

variable {a b : Pattern Symbol} {d e : Nat}

theorem body {symbol : Symbol} {body : Pattern Symbol} (h : Steady (.call symbol) d e)
    (hrule : language.rule symbol = .phrase true body) : Steady body 0 0 where
  isSteady := isSteady_of_rule hrule (by simpa using (Bool.and_eq_true_iff.1 h.isSteady).2)
  texts := plain_of_rule hrule
  depth := balanced_of_rule hrule

theorem ne_ending {symbol : Symbol} (h : Steady (.call symbol) d e) : symbol ≠ .ending := by
  simpa using (Bool.and_eq_true_iff.1 h.isSteady).1

theorem seq (h : Steady (.seq a b) d e) : ∃ m, Steady a d m ∧ Steady b m e := by
  obtain ⟨ha, hb⟩ := Bool.and_eq_true_iff.1 h.isSteady
  obtain ⟨m, hm, he⟩ := Option.bind_eq_some_iff.1 h.depth
  exact ⟨m, ⟨ha, h.texts.1, hm⟩, ⟨hb, h.texts.2, he⟩⟩

theorem choice (h : Steady (.choice a b) d e) : Steady a 0 0 ∧ Steady b d e := by
  obtain ⟨h', hb⟩ := Bool.and_eq_true_iff.1 h.isSteady
  obtain ⟨hdepth, ha⟩ := Bool.and_eq_true_iff.1 h'
  exact ⟨⟨ha, h.texts.1, beq_iff_eq.1 hdepth⟩, ⟨hb, h.texts.2, (patternDepth_choice h.depth).2⟩⟩

theorem optional (h : Steady (.optional a) d e) : Steady a d d :=
  ⟨h.isSteady, h.texts, (eq_of_ite_eq_some h.depth).1⟩

theorem many (h : Steady (.many a) d e) : Steady a d d :=
  ⟨h.isSteady, h.texts, (eq_of_ite_eq_some h.depth).1⟩

theorem again (h : Steady (.many a) d e) : Steady (.many a) d d := by
  obtain ⟨hdepth, rfl⟩ := eq_of_ite_eq_some h.depth
  exact h

end Steady

/-! ### Matching -/

section Matching

variable {tail s : List Char} {k limit place : Nat} {tried : Attempts Symbol} {p : Pattern Symbol}
  {d e : Nat}

/-- What a pattern matches takes the code along, at whatever place it is matched. -/
theorem passes_answer (hp : Steady p d e) (hs : blanks s = 0)
    (hlimit : p.StartsBelow language limit) {m : Match Symbol s place}
    (h : language.answer limit p s place tried = some m) :
    Passes d s e m.rest := by
  have hderives := language_ordered.derives_answer hlimit s place tried
  rw [h] at hderives
  exact passes_of_derives hderives hs hp.texts rfl hp.depth

theorem stop_skip (m : Match Symbol s place) :
    (m.skip (language.gap true m.rest)).stop = m.stop + blanks m.rest := by
  show m.stop + (advance (blanks m.rest) m.rest).1 = _
  rw [advance_fst, Nat.min_eq_left (blanks_le_length m.rest)]

end Matching

/-- Where a text is read, and where the text with `tail` behind it is. -/
structure Abreast (k : Nat) (tail s : List Char) (place : Nat) (s' : List Char) (place' : Nat) :
    Prop where
  text : s' = s ++ tail
  place : place' = place + k
  blanks : blanks s = 0
  behind : Behind tail s

/-- Behind the same match and the blanks there, reading goes on in both texts. -/
theorem Abreast.next {k : Nat} {tail s s' : List Char} {place place' : Nat}
    (h : Abreast k tail s place s' place') {p : Pattern Symbol} {d e : Nat} (hp : Steady p d e)
    {limit limit' : Nat} (hlimit : p.StartsBelow language limit)
    (hlimit' : p.StartsBelow language limit') {tried tried' : Attempts Symbol}
    {m : Match Symbol s place} (hm : language.answer limit p s place tried = some m)
    {m' : Match Symbol s' place'} (hm' : language.answer limit' p s' place' tried' = some m')
    (hmoved : m.Moved k tail m') :
    Abreast k tail (m.skip (language.gap true m.rest)).rest (m.skip (language.gap true m.rest)).stop
      (m'.skip (language.gap true m'.rest)).rest (m'.skip (language.gap true m'.rest)).stop := by
  obtain ⟨rfl, -, hs, hb⟩ := h
  have hpass := passes_answer hp (hb.blanks_eq.trans hs) hlimit' hm'
  rw [hmoved.rest] at hpass
  have hrest := hb.of_passes (passes_answer hp hs hlimit hm) hpass
  constructor
  · rw [m'.rest_skip, m.rest_skip, hmoved.rest]
    exact hrest.skip_eq
  · rw [stop_skip, stop_skip, hmoved.rest, hrest.blanks_eq, hmoved.stop, Nat.add_right_comm]
  · rw [m.rest_skip]
    exact blanks_drop_blanks _
  · rw [m.rest_skip]
    exact hrest.skip

namespace Abreast

variable {k : Nat} {tail s s' : List Char} {place place' : Nat}

theorem nothing (h : Abreast k tail s place s' place') :
    Carried k tail (some (.nothing s place : Match Symbol s place))
      (some (.nothing s' place')) := by
  obtain ⟨rfl, rfl, -, -⟩ := h
  exact .found Match.moved_nothing

/-- A pattern that closes what it opens does not go on into what stands behind a text. -/
theorem eq_none (h : Abreast k tail s place s' place') {p : Pattern Symbol} {d : Nat}
    (hp : Steady p d d) {limit : Nat} (hlimit : p.StartsBelow language limit)
    {tried : Attempts Symbol}
    (hcarried : Carried k tail (none : Option (Match Symbol s place))
      (language.answer limit p s' place' tried)) :
    language.answer limit p s' place' tried = none := by
  obtain ⟨rfl, -, hs, hb⟩ := h
  rcases hcarried.of_none with hnone | ⟨m, hm, hlt⟩
  · exact hnone
  · have hpass := passes_answer hp (hb.blanks_eq.trans hs) hlimit hm
    exact absurd (hb.length_le hpass (Nat.le_refl d)) (Nat.not_le.2 hlt)

end Abreast

/-- A fixed text that is not there either stays so or goes on into what stands behind. -/
theorem carried_text {k : Nat} {tail s s' : List Char} {place place' : Nat}
    (h : Abreast k tail s place s' place') (chars : List Char) {limit limit' : Nat}
    (tried tried' : Attempts Symbol) :
    Carried k tail (language.answer limit (.text chars) s place tried)
      (language.answer limit' (.text chars) s' place' tried') := by
  obtain ⟨rfl, rfl, -, -⟩ := h
  rw [answer_text, answer_text]
  by_cases hstart : chars.isPrefixOf s = true
  · have hfront := List.isPrefixOf_iff_prefix.1 hstart
    rw [if_pos hstart,
      if_pos (List.isPrefixOf_iff_prefix.2 (hfront.trans (List.prefix_append s tail)))]
    exact .found (Match.moved_take hfront.length_le)
  · rw [if_neg hstart]
    split
    · next hlong =>
      have hfront := List.isPrefixOf_iff_prefix.1 hlong
      have hlt : s.length < chars.length := Nat.lt_of_not_le fun hle ↦ hstart
        (List.isPrefixOf_iff_prefix.2
          (List.prefix_of_prefix_length_le hfront (List.prefix_append s tail) hle))
      refine .beyond ?_
      have hle := hfront.length_le
      show (advance chars.length (s ++ tail)).2.length < tail.length
      rw [advance_snd, List.length_drop]
      rw [List.length_append] at hle ⊢
      omega
    · exact .refused

theorem carried_token {k : Nat} {tail s s' : List Char} {place place' : Nat}
    (h : Abreast k tail s place s' place') {symbol : Symbol} {lexeme : Recogniser}
    (hrule : language.rule symbol = .token lexeme) (hsymbol : symbol ≠ .ending) {limit limit' : Nat}
    (tried tried' : Attempts Symbol) :
    Carried k tail (language.answer limit (.call symbol) s place tried)
      (language.answer limit' (.call symbol) s' place' tried') := by
  obtain ⟨rfl, rfl, -, hb⟩ := h
  have hsame : lexeme (s ++ tail) = lexeme s := by
    rcases hb.tail_eq with rfl | ⟨rfl, -⟩
    · rw [List.append_nil]
    · exact lexeme_append_closer s hrule hsymbol
  rw [answer_token hrule, answer_token hrule, hsame]
  cases hn : lexeme s with
  | none => exact .refused
  | some n =>
    have hle := language_bounded symbol lexeme hrule s n hn
    refine .found ?_
    have hmoved : (Match.take s place n [.mk symbol (place, place + n) (s.take n) []]).Moved k tail
        (.take (s ++ tail) (place + k) n _) := Match.moved_take hle
    dsimp only
    rw [List.take_append_of_le_length hle, Nat.add_right_comm place k n]
    exact hmoved

/-- What is found in a text is found in the text with a bracket behind it. -/
theorem carried_answer {k : Nat} {tail : List Char} (p : Pattern Symbol) {d e : Nat}
    (hp : Steady p d e) {s s' : List Char} {place place' : Nat}
    (h : Abreast k tail s place s' place') {limit limit' : Nat}
    (hlimit : p.StartsBelow language limit) (hlimit' : p.StartsBelow language limit')
    (tried tried' : Attempts Symbol) :
    Carried k tail (language.answer limit p s place tried)
      (language.answer limit' p s' place' tried') := by
  match p with
  | .text chars => exact carried_text h chars tried tried'
  | .call symbol =>
    cases hrule : language.rule symbol with
    | token lexeme => exact carried_token h hrule hp.ne_ending tried tried'
    | phrase spaced body =>
      obtain rfl := language_ordered.spaced hrule
      have hrank : language.rank symbol < limit := by
        rwa [Pattern.StartsBelow, hrule] at hlimit
      have hrank' : language.rank symbol < limit' := by
        rwa [Pattern.StartsBelow, hrule] at hlimit'
      rw [answer_phrase hrule hrank, answer_phrase hrule hrank']
      have hstarts := language_ordered.starts hrule
      exact (carried_answer body (hp.body hrule) h hstarts hstarts tried tried').wrap h.place symbol
  | .seq a b =>
    obtain ⟨depth, ha, hb⟩ := hp.seq
    have hfirst := carried_answer a ha h hlimit.seq.1 hlimit'.seq.1 tried tried'
    rw [answer_seq, answer_seq]
    cases hm : language.answer limit a s place tried with
    | none =>
      rw [hm] at hfirst
      rcases hfirst.of_none with hnone | ⟨m', hm', hlt⟩
      · rw [hnone]
        exact .refused
      · rw [hm']
        exact .bind_beyond hlt _
    | some m =>
      rw [hm] at hfirst
      obtain ⟨m', hm', hmoved⟩ := hfirst.of_some
      rw [hm', Option.bind_some, Option.bind_some]
      -- behind the first part both texts are read on from the same blanks
      have hnext := h.next ha hlimit.seq.1 hlimit'.seq.1 hm hm' hmoved
      have hbelow := language_ordered.startsBelow_second hlimit hm (language.gap true m.rest)
      have hbelow' := language_ordered.startsBelow_second hlimit' hm' (language.gap true m'.rest)
      exact .append hmoved (carried_answer b hb hnext hbelow hbelow' _ _)
  | .choice a b =>
    obtain ⟨ha, hb⟩ := hp.choice
    have hfirst := carried_answer a ha h hlimit.1 hlimit'.1 tried tried'
    rw [answer_choice, answer_choice]
    cases hm : language.answer limit a s place tried with
    | none =>
      -- an alternative that is not found in the text does not match across the bracket
      rw [hm] at hfirst
      rw [h.eq_none ha hlimit'.1 hfirst, Option.none_or, Option.none_or]
      exact carried_answer b hb h hlimit.2 hlimit'.2 _ _
    | some m =>
      rw [hm] at hfirst
      obtain ⟨m', hm', hmoved⟩ := hfirst.of_some
      rw [hm', Option.some_or, Option.some_or]
      exact .found hmoved
  | .optional a =>
    have hfirst := carried_answer a hp.optional h hlimit hlimit' tried tried'
    rw [answer_optional, answer_optional]
    cases hm : language.answer limit a s place tried with
    | none =>
      rw [hm] at hfirst
      rw [h.eq_none hp.optional hlimit' hfirst]
      exact h.nothing
    | some m =>
      rw [hm] at hfirst
      obtain ⟨m', hm', hmoved⟩ := hfirst.of_some
      rw [hm']
      exact .found hmoved
  | .many a =>
    have hfirst := carried_answer a hp.many h hlimit hlimit' tried tried'
    rw [answer_many, answer_many]
    cases hm : language.answer limit a s place tried with
    | none =>
      rw [hm] at hfirst
      rw [h.eq_none hp.many hlimit' hfirst]
      exact h.nothing
    | some m =>
      rw [hm] at hfirst
      obtain ⟨m', hm', hmoved⟩ := hfirst.of_some
      rw [hm', Option.elim_some, Option.elim_some]
      have hnext := h.next hp.many hlimit hlimit' hm hm' hmoved
      have hgoes : place' < (m'.skip (language.gap true m'.rest)).stop ↔
          place < (m.skip (language.gap true m.rest)).stop := by
        rw [hnext.place, h.place]
        exact Nat.add_lt_add_iff_right
      -- the repetition goes on in both texts, or in none
      by_cases hlt : place < (m.skip (language.gap true m.rest)).stop
      · simp only [hgoes, if_pos hlt]
        have htop := language_ordered.startsBelow_top (.many a)
        have hmore := carried_answer (.many a) hp.again hnext htop htop
          (language.run true limit a s place tried).2
          (language.run true limit' a s' place' tried').2
        refine hmoved.many hnext.place hmore fun hnone ↦ ?_
        rw [hnone] at hmore
        exact hnext.eq_none hp.again htop hmore
      · simp only [hgoes, if_neg hlt]
        exact .found hmoved
  | .absent a => exact absurd hp.isSteady Bool.false_ne_true
-- the measure is that of `Language.run` on the first text
termination_by (s.length, limit, sizeOf p)
decreasing_by
  · exact .right _ (.left _ _ hrank)
  · exact .right _ (.right _ (by simp only [Pattern.seq.sizeOf_spec]; omega))
  · have hlength := (m.skip (language.gap true m.rest)).length_add
    have hle := (m.skip (language.gap true m.rest)).le
    by_cases hlt : place < (m.skip (language.gap true m.rest)).stop
    · exact .left _ _ ((m.skip _).length_lt hlt)
    · rw [if_neg hlt, show (m.skip (language.gap true m.rest)).rest.length = s.length by omega]
      exact .right _ (.right _ (by simp only [Pattern.seq.sizeOf_spec]; omega))
  · exact .right _ (.right _ (by simp only [Pattern.choice.sizeOf_spec]; omega))
  · exact .right _ (.right _ (by simp only [Pattern.choice.sizeOf_spec]; omega))
  · exact .right _ (.right _ (by simp only [Pattern.optional.sizeOf_spec]; omega))
  · exact .right _ (.right _ (by simp only [Pattern.many.sizeOf_spec]; omega))
  · exact .left _ _ ((m.skip _).length_lt hlt)

section Found

variable {p : Pattern Symbol} {d e : Nat} {s t : List Char} {nodes : List (Node Symbol)}

/-- What is derived from a text is found at some place there, wherever it is asked for. -/
theorem exists_found (hp : Steady p d e) (hs : blanks s = 0)
    (hcloses : ∃ e, depthBehind e (code s) = some 0) (h : Takes p s nodes t) (place : Nat) :
    ∃ placed stop, language.Found p s place placed t stop ∧ Node.bareAll placed = nodes := by
  have htop := language_ordered.startsBelow_top p
  have hanswer := (language_ordered.derives_answer htop s place .none).unique h
  obtain ⟨m, hm, hbare⟩ := Option.map_eq_some_iff.1 hanswer
  obtain ⟨rfl, rfl⟩ := Prod.mk.inj hbare
  refine ⟨m.nodes, m.stop, fun limit tried hlimit ↦ ?_, rfl⟩
  have hstay : Abreast 0 [] s place s place :=
    ⟨(List.append_nil s).symm, rfl, hs, .inl rfl, hcloses⟩
  have hcarried := carried_answer p hp hstay htop hlimit .none tried
  rw [hm] at hcarried
  obtain ⟨m', hm', hmoved⟩ := hcarried.of_some
  exact ⟨m', hm', hmoved.nodes.trans (Node.shiftAll_zero _),
    hmoved.rest.trans (List.append_nil _), hmoved.stop⟩

/-- What is found in a text is found in front of a closing bracket that is read as code. -/
theorem found_in_brackets (hp : Steady p d e) (hs : blanks s = 0) (hb : Behind [')'] s)
    {place stop : Nat} (h : language.Found p s place nodes t stop) (k : Nat) :
    language.Found p (s ++ [')']) (place + k) (Node.shiftAll k nodes) (t ++ [')']) (stop + k) ∧
      Behind [')'] t := by
  have htop := language_ordered.startsBelow_top p
  obtain ⟨m, hm, rfl, rfl, rfl⟩ := h language.top .none htop
  have habreast : Abreast k [')'] s place (s ++ [')']) (place + k) := ⟨rfl, rfl, hs, hb⟩
  have hfound : language.Found p (s ++ [')']) (place + k) (Node.shiftAll k m.nodes)
      (m.rest ++ [')']) (m.stop + k) := by
    intro limit tried hlimit
    have hcarried := carried_answer p hp habreast htop hlimit .none tried
    rw [hm] at hcarried
    obtain ⟨m', hm', hmoved⟩ := hcarried.of_some
    exact ⟨m', hm', hmoved.nodes, hmoved.rest, hmoved.stop⟩
  obtain ⟨m', hm', -, hrest, -⟩ := hfound language.top .none htop
  have hpass := passes_answer hp (hb.blanks_eq.trans hs) htop hm'
  rw [hrest] at hpass
  exact ⟨hfound, hb.of_passes (passes_answer hp hs htop hm) hpass⟩

end Found

end Snippet.Script
