import Snippet.Grammar.Matching

/-!
# Derivations

`Language.run` explains failures, keeps places and bounds its own recursion. What a pattern matches
depends on none of this. A derivation says which nodes a pattern finds and what is left behind
them, or that it does not match; it knows neither places nor ranks (`derives_run`), and there is
only one for a pattern and a text (`Derives.unique`).

A derivation does not need a text of characters. It is relative to a `Reader`, which says what
stands at the front of what is left to read. Two readers that see the same tokens derive the same
nodes (`Derives.transfer`), whatever each of them passes over between the tokens.

Only languages without tight phrases are considered here.
-/

namespace Snippet.Grammar

variable {σ S S' : Type}

/-! ### Nodes up to places -/

mutual

/-- The node with every place in it set to zero. -/
def Node.bare : Node σ → Node σ
  | .mk symbol _ text parts => .mk symbol (0, 0) text (Node.bareAll parts)

/-- The nodes with every place in them set to zero. -/
def Node.bareAll : List (Node σ) → List (Node σ)
  | [] => []
  | node :: rest => node.bare :: Node.bareAll rest

end

@[simp]
theorem Node.bareAll_append (ns ms : List (Node σ)) :
    bareAll (ns ++ ms) = bareAll ns ++ bareAll ms := by
  induction ns with
  | nil => rfl
  | cons n ns ih => exact congrArg (n.bare :: ·) ih

/-! ### Readers and derivations -/

/-- A way of reading tokens and fixed texts from states of the type `S`. Each look answers with
what is left behind what was found, or with `none`; a reader need not have an answer to every
look. -/
structure Reader (σ S : Type) where
  /-- What looking for a token answers with, with the characters of the token. -/
  token : σ → S → Option (List Char × S) → Prop
  /-- What looking for a fixed text answers with. -/
  text : List Char → S → Option S → Prop
  /-- Passes over what separates two tokens. -/
  skip : S → S
  /-- How much is left to read. -/
  size : S → Nat

/-- `Derives g R p s r` says that reading the pattern `p` from `s` has the result `r`: the nodes
found, without their places, and what is left, or `none` where the pattern does not match. -/
inductive Derives (g : Language σ) (R : Reader σ S) :
    Pattern σ → S → Option (List (Node σ) × S) → Prop
  | text {chars s t} (h : R.text chars s (some t)) : Derives g R (.text chars) s (some ([], t))
  | noText {chars s} (h : R.text chars s none) : Derives g R (.text chars) s none
  | token {symbol s chars t} (h : R.token symbol s (some (chars, t))) :
    Derives g R (.call symbol) s (some ([.mk symbol (0, 0) chars []], t))
  | noToken {symbol s} (h : R.token symbol s none) : Derives g R (.call symbol) s none
  | phrase {symbol body s nodes t} (hrule : g.rule symbol = .phrase true body)
      (h : Derives g R body s (some (nodes, t))) :
    Derives g R (.call symbol) s (some ([.mk symbol (0, 0) [] nodes], t))
  | noPhrase {symbol body s} (hrule : g.rule symbol = .phrase true body)
      (h : Derives g R body s none) : Derives g R (.call symbol) s none
  | seq {a b s nodes t more u} (ha : Derives g R a s (some (nodes, t)))
      (hb : Derives g R b (R.skip t) (some (more, u))) :
    Derives g R (.seq a b) s (some (nodes ++ more, u))
  | noFirst {a b s} (ha : Derives g R a s none) : Derives g R (.seq a b) s none
  | noSecond {a b s nodes t} (ha : Derives g R a s (some (nodes, t)))
      (hb : Derives g R b (R.skip t) none) : Derives g R (.seq a b) s none
  | left {a b s m} (ha : Derives g R a s (some m)) : Derives g R (.choice a b) s (some m)
  | right {a b s r} (ha : Derives g R a s none) (hb : Derives g R b s r) :
    Derives g R (.choice a b) s r
  | present {a s m} (h : Derives g R a s (some m)) : Derives g R (.optional a) s (some m)
  | missing {a s} (h : Derives g R a s none) : Derives g R (.optional a) s (some ([], s))
  | done {a s} (h : Derives g R a s none) : Derives g R (.many a) s (some ([], s))
  | stuck {a s nodes t} (h : Derives g R a s (some (nodes, t)))
      (hsize : ¬R.size (R.skip t) < R.size s) : Derives g R (.many a) s (some (nodes, t))
  | last {a s nodes t more u} (h : Derives g R a s (some (nodes, t)))
      (hsize : R.size (R.skip t) < R.size s)
      (hmore : Derives g R (.many a) (R.skip t) (some (more, u)))
      (hlast : ¬R.size u < R.size (R.skip t)) : Derives g R (.many a) s (some (nodes, t))
  | more {a s nodes t more u} (h : Derives g R a s (some (nodes, t)))
      (hsize : R.size (R.skip t) < R.size s)
      (hmore : Derives g R (.many a) (R.skip t) (some (more, u)))
      (hnext : R.size u < R.size (R.skip t)) : Derives g R (.many a) s (some (nodes ++ more, u))
  | found {a s m} (h : Derives g R a s (some m)) : Derives g R (.absent a) s none
  | notFound {a s} (h : Derives g R a s none) : Derives g R (.absent a) s (some ([], s))

/-- Reading the characters of a text by the lexemes of a language. -/
def Language.reader (g : Language σ) : Reader σ (List Char) where
  token symbol s r :=
    ∃ lexeme, g.rule symbol = .token lexeme ∧ r = (lexeme s).map fun n ↦ (s.take n, s.drop n)
  text chars s r := r = if chars.isPrefixOf s then some (s.drop chars.length) else none
  skip s := s.drop (g.blanks s)
  size := List.length

/-! ### One result -/

theorem Language.reader_token_unique {g : Language σ} {symbol : σ} {s : List Char}
    {r r' : Option (List Char × List Char)} (h : g.reader.token symbol s r)
    (h' : g.reader.token symbol s r') : r = r' := by
  obtain ⟨lexeme, hrule, rfl⟩ := h
  obtain ⟨lexeme', hrule', rfl⟩ := h'
  rw [hrule] at hrule'
  cases hrule'
  rfl

/-- A phrase is not looked for as a token. -/
theorem Language.not_reader_token {g : Language σ} {symbol : σ} {spaced : Bool} {body : Pattern σ}
    {s : List Char} {r : Option (List Char × List Char)}
    (hrule : g.rule symbol = .phrase spaced body) :
    ¬g.reader.token symbol s r := by
  rintro ⟨lexeme, hrule', -⟩
  rw [hrule] at hrule'
  cases hrule'

/-- A pattern has one result on a text. -/
theorem Derives.unique {g : Language σ} {p : Pattern σ} {s : List Char}
    {r r' : Option (List (Node σ) × List Char)} (h : Derives g g.reader p s r)
    (h' : Derives g g.reader p s r') : r = r' := by
  induction h generalizing r' with
  | text h =>
    cases h' with
    | text h' => cases h.trans h'.symm; rfl
    | noText h' => cases h.trans h'.symm
  | noText h =>
    cases h' with
    | text h' => cases h.trans h'.symm
    | noText h' => rfl
  | token h =>
    cases h' with
    | token h' => cases Language.reader_token_unique h h'; rfl
    | noToken h' => cases Language.reader_token_unique h h'
    | phrase hrule' => cases Language.not_reader_token hrule' h
    | noPhrase hrule' => cases Language.not_reader_token hrule' h
  | noToken h =>
    cases h' with
    | token h' => cases Language.reader_token_unique h h'
    | noToken h' => rfl
    | phrase hrule' => cases Language.not_reader_token hrule' h
    | noPhrase hrule' => rfl
  | phrase hrule h ih =>
    cases h' with
    | token h' => cases Language.not_reader_token hrule h'
    | noToken h' => cases Language.not_reader_token hrule h'
    | phrase hrule' h' =>
      cases hrule.symm.trans hrule'
      cases ih h'
      rfl
    | noPhrase hrule' h' =>
      cases hrule.symm.trans hrule'
      cases ih h'
  | noPhrase hrule h ih =>
    cases h' with
    | token h' => cases Language.not_reader_token hrule h'
    | noToken h' => rfl
    | phrase hrule' h' =>
      cases hrule.symm.trans hrule'
      cases ih h'
    | noPhrase hrule' h' => rfl
  | seq ha hb iha ihb =>
    cases h' with
    | seq ha' hb' =>
      cases iha ha'
      cases ihb hb'
      rfl
    | noFirst ha' => cases iha ha'
    | noSecond ha' hb' =>
      cases iha ha'
      cases ihb hb'
  | noFirst ha iha =>
    cases h' with
    | seq ha' hb' => cases iha ha'
    | noFirst ha' => rfl
    | noSecond ha' hb' => rfl
  | noSecond ha hb iha ihb =>
    cases h' with
    | seq ha' hb' =>
      cases iha ha'
      cases ihb hb'
    | noFirst ha' => rfl
    | noSecond ha' hb' => rfl
  | left ha iha =>
    cases h' with
    | left ha' => exact iha ha'
    | right ha' hb' => cases iha ha'
  | right ha hb iha ihb =>
    cases h' with
    | left ha' => cases iha ha'
    | right ha' hb' => exact ihb hb'
  | present h ih =>
    cases h' with
    | present h' => exact ih h'
    | missing h' => cases ih h'
  | missing h ih =>
    cases h' with
    | present h' => cases ih h'
    | missing h' => rfl
  | done h ih =>
    cases h' with
    | done h' => rfl
    | stuck h' => cases ih h'
    | last h' => cases ih h'
    | more h' => cases ih h'
  | stuck h hsize ih =>
    cases h' with
    | done h' => cases ih h'
    | stuck h' => exact ih h'
    | last h' hsize' =>
      cases ih h'
      exact absurd hsize' hsize
    | more h' hsize' =>
      cases ih h'
      exact absurd hsize' hsize
  | last h hsize hmore hlast ih ihmore =>
    cases h' with
    | done h' => cases ih h'
    | stuck h' hsize' =>
      cases ih h'
      exact absurd hsize hsize'
    | last h' => exact ih h'
    | more h' hsize' hmore' hnext =>
      cases ih h'
      cases ihmore hmore'
      exact absurd hnext hlast
  | more h hsize hmore hnext ih ihmore =>
    cases h' with
    | done h' => cases ih h'
    | stuck h' hsize' =>
      cases ih h'
      exact absurd hsize hsize'
    | last h' hsize' hmore' hlast =>
      cases ih h'
      cases ihmore hmore'
      exact absurd hnext hlast
    | more h' hsize' hmore' hnext' =>
      cases ih h'
      cases ihmore hmore'
      rfl
  | found h ih =>
    cases h' with
    | found h' => rfl
    | notFound h' => cases ih h'
  | notFound h ih =>
    cases h' with
    | found h' => cases ih h'
    | notFound h' => rfl

/-! ### What matching finds -/

/-- Whether a pattern can start only with phrases of a rank below `limit`. Behind a fixed text any
phrase may stand. -/
def Pattern.StartsBelow (g : Language σ) (limit : Nat) : Pattern σ → Prop
  | .text _ => True
  | .call symbol =>
    match g.rule symbol with
    | .token _ => True
    | .phrase _ _ => g.rank symbol < limit
  | .seq (.text (_ :: _)) _ => True
  | .seq a b => a.StartsBelow g limit ∧ b.StartsBelow g limit
  | .choice a b => a.StartsBelow g limit ∧ b.StartsBelow g limit
  | .optional a | .many a | .absent a => a.StartsBelow g limit

/-- A language whose phrases are all spaced, and whose ranks are those of its rules. -/
structure Language.Ordered (g : Language σ) : Prop where
  spaced : ∀ {symbol spaced body}, g.rule symbol = .phrase spaced body → spaced = true
  starts : ∀ {symbol spaced body}, g.rule symbol = .phrase spaced body →
    body.StartsBelow g (g.rank symbol)
  rank_lt : ∀ symbol, g.rank symbol < g.top

variable {g : Language σ}

theorem Language.Ordered.startsBelow_top (hg : g.Ordered) (p : Pattern σ) :
    p.StartsBelow g g.top := by
  induction p with
  | text => trivial
  | call symbol =>
    rw [Pattern.StartsBelow]
    split
    · trivial
    · exact hg.rank_lt symbol
  | seq a b iha ihb =>
    unfold Pattern.StartsBelow
    split <;> simp_all
  | choice a b iha ihb => exact ⟨iha, ihb⟩
  | optional a ih => exact ih
  | many a ih => exact ih
  | absent a ih => exact ih

/-- The second part of a sequence may start with any phrase only where the first one is a fixed
text. -/
theorem Pattern.StartsBelow.seq {limit : Nat} {a b : Pattern σ}
    (h : (Pattern.seq a b).StartsBelow g limit) :
    a.StartsBelow g limit ∧ (b.StartsBelow g limit ∨ ∃ c chars, a = .text (c :: chars)) := by
  cases a with
  | text chars =>
    cases chars with
    | nil => exact ⟨h.1, .inl h.2⟩
    | cons c chars => exact ⟨trivial, .inr ⟨c, chars, rfl⟩⟩
  | _ => exact ⟨h.1, .inl h.2⟩

/-- A match without its places: the nodes and what is left. -/
def Match.bare {s : List Char} {place : Nat} (m : Match σ s place) : List (Node σ) × List Char :=
  (Node.bareAll m.nodes, m.rest)

@[simp]
theorem advance_snd (n : Nat) (s : List Char) : (advance n s).2 = s.drop n := by
  fun_induction advance n s <;> simp_all

/-- Joining two matches joins their nodes; blanks between them leave none. -/
theorem Match.bare_append_skip {s : List Char} {place gap : Nat} (m : Match σ s place)
    (n : Match σ (m.skip gap).rest (m.skip gap).stop) :
    ((m.skip gap).append n).bare = (Node.bareAll m.nodes ++ Node.bareAll n.nodes, n.rest) := by
  simp [Match.bare, Match.append, Match.skip]

theorem Match.rest_skip {s : List Char} {place : Nat} (m : Match σ s place) :
    (m.skip (g.gap true m.rest)).rest = g.reader.skip m.rest := by
  simp [Match.skip, Language.gap, Language.reader]

/-- Moving on is having less left to read. -/
theorem Match.lt_stop_iff {s : List Char} {place : Nat} (m : Match σ s place) :
    place < m.stop ↔ m.rest.length < s.length := by
  have := m.length_add
  omega

/-- A fixed text that is not empty takes characters. -/
theorem lt_stop_of_text {spaced : Bool} {limit place : Nat} {c : Char} {chars s : List Char}
    {tried tried' : Attempts σ} {m : Match σ s place}
    (h : g.run spaced limit (.text (c :: chars)) s place tried = (some m, tried')) :
    place < m.stop := by
  rw [Language.run] at h
  split at h
  · next hstart =>
    obtain ⟨rest, rfl⟩ := List.isPrefixOf_iff_prefix.1 hstart
    cases h
    rw [Match.lt_stop_iff]
    simp only [Match.take, advance_snd, List.length_drop, List.length_append, List.length_cons]
    omega
  · cases h

/-- What matching finds can be derived. -/
theorem Language.Ordered.derives_run (hg : g.Ordered) {spaced : Bool} (limit : Nat)
    (p : Pattern σ) (s : List Char) (place : Nat) (tried : Attempts σ) (hspaced : spaced = true)
    (hp : p.StartsBelow g limit) :
    Derives g g.reader p s ((g.run spaced limit p s place tried).1.map Match.bare) := by
  fun_induction Language.run g spaced limit p s place tried with
  | case1 spaced limit s place tried chars =>
    split
    · next h => exact .text (by simp only [Language.reader, Match.take, h, advance_snd, if_true])
    · next h => exact .noText (by simp only [Language.reader, h, if_false, Bool.false_eq_true])
  | case2 _ _ s _ _ _ lexeme hrule n hn =>
    exact .token ⟨lexeme, hrule, by simp [Match.take, hn]⟩
  | case3 _ _ s _ _ _ _ lexeme hrule hn =>
    exact .noToken ⟨lexeme, hrule, by simp [hn]⟩
  | case4 _ _ s place _ symbol inner body hrule _ m _ hrun ih =>
    obtain rfl := hg.spaced hrule
    have h := ih rfl (hg.starts hrule)
    rw [hrun] at h
    exact .phrase hrule h
  | case5 _ _ s place _ symbol _ inner body hrule _ _ hrun ih =>
    obtain rfl := hg.spaced hrule
    have h := ih rfl (hg.starts hrule)
    rw [hrun] at h
    exact .noPhrase hrule h
  | case6 _ limit _ _ _ symbol inner body hrule hrank =>
    rw [Pattern.StartsBelow, hrule] at hp
    exact absurd hp hrank
  | case7 _ limit s _ _ a b _ hrun ih =>
    have h := ih hspaced hp.seq.1
    rw [hrun] at h
    exact .noFirst h
  | case8 _ limit s place _ a b m _ hrun next n _ hrun₂ iha ihb ihb' =>
    subst hspaced
    have ha := iha rfl hp.seq.1
    rw [hrun] at ha
    have hb : Derives g g.reader b (g.reader.skip m.rest) (n.map Match.bare) := by
      rw [← m.rest_skip]
      split at hrun₂
      · next hlt =>
        have h := ihb hlt rfl (hg.startsBelow_top b)
        rwa [hrun₂] at h
      · next hlt =>
        have hbelow : b.StartsBelow g limit := hp.seq.2.resolve_right fun ⟨c, chars, heq⟩ ↦ by
          subst heq
          exact hlt (Nat.lt_of_lt_of_le (lt_stop_of_text hrun) (Nat.le_add_right _ _))
        have h := ihb' hlt rfl hbelow
        rwa [hrun₂] at h
    cases n with
    | none => exact .noSecond ha hb
    | some n =>
      rw [Option.map_some, Option.map_some, Match.bare_append_skip]
      exact .seq ha hb
  | case9 _ _ s _ _ a b m _ hrun ih =>
    have h := ih hspaced hp.1
    rw [hrun] at h
    exact .left h
  | case10 _ _ s _ _ a b _ hrun iha ihb =>
    have h := iha hspaced hp.1
    rw [hrun] at h
    exact .right h (ihb hspaced hp.2)
  | case11 _ _ s _ _ a m _ hrun ih =>
    have h := ih hspaced hp
    rw [hrun] at h
    exact .present h
  | case12 _ _ s _ _ a _ hrun ih =>
    have h := ih hspaced hp
    rw [hrun] at h
    exact .missing h
  | case13 _ _ s _ _ a _ hrun ih =>
    have h := ih hspaced hp
    rw [hrun] at h
    exact .done h
  | case14 _ _ s place _ a m _ hrun next hnext _ more _ hmore ih ihmore =>
    subst hspaced
    have h := ih rfl hp
    rw [hrun] at h
    have h' := ihmore rfl (hg.startsBelow_top a.many)
    rw [hmore] at h'
    have hnextmore : Derives g g.reader a.many (g.reader.skip m.rest)
        (some (Node.bareAll more.nodes, more.rest)) := by
      rw [← m.rest_skip]
      exact h'
    have hsize : g.reader.size (g.reader.skip m.rest) < g.reader.size s := by
      rw [← m.rest_skip]
      exact next.lt_stop_iff.1 hnext
    split
    · next hlt =>
      rw [Option.map_some, Match.bare_append_skip]
      refine .more h hsize hnextmore ?_
      rw [← m.rest_skip]
      exact more.lt_stop_iff.1 hlt
    · next hlt =>
      refine .last h hsize hnextmore fun hlt' ↦ hlt ?_
      rw [← m.rest_skip] at hlt'
      exact more.lt_stop_iff.2 hlt'
  | case15 _ _ s place _ a m _ hrun next hnext _ _ hmore ih ihmore =>
    -- a repetition always matches
    have h := ihmore hspaced (hg.startsBelow_top a.many)
    rw [hmore] at h
    cases h
  | case16 _ _ s place _ a m _ hrun next hnext ih =>
    subst hspaced
    have h := ih rfl hp
    rw [hrun] at h
    refine .stuck h fun hsize ↦ hnext ?_
    rw [← m.rest_skip] at hsize
    exact next.lt_stop_iff.2 hsize
  | case17 _ _ s _ _ a m hrun ih =>
    have h := ih hspaced hp
    rw [hrun] at h
    exact .found h
  | case18 _ _ s _ _ a hrun ih =>
    have h := ih hspaced hp
    rw [hrun] at h
    exact .notFound h

/-- A derivation on a text is what matching finds there. -/
theorem Language.Ordered.derives_iff (hg : g.Ordered) {limit : Nat} {p : Pattern σ}
    (hp : p.StartsBelow g limit) (s : List Char) (place : Nat) (tried : Attempts σ)
    {r : Option (List (Node σ) × List Char)} :
    Derives g g.reader p s r ↔ (g.run true limit p s place tried).1.map Match.bare = r := by
  have hrun := hg.derives_run limit p s place tried rfl hp
  exact ⟨fun h ↦ hrun.unique h, fun h ↦ h ▸ hrun⟩

/-- A text that a symbol is found in has the node that is derived, at some place. -/
theorem Language.Ordered.parse_of_derives (hg : g.Ordered) {symbol : σ} {s rest : List Char}
    {node : Node σ} (h : Derives g g.reader (.call symbol) s (some ([node], rest))) :
    ∃ placed, g.parse symbol s = .ok placed ∧ placed.bare = node := by
  have hrun := (hg.derives_iff (hg.startsBelow_top _) s 0 .none).1 h
  obtain ⟨m, hm, hbare⟩ := Option.map_eq_some_iff.1 hrun
  obtain ⟨rest', stop, nodes, hle, hlength⟩ := m
  obtain ⟨hnodes, -⟩ := Prod.mk.inj hbare
  obtain ⟨placed, rfl, rfl⟩ : ∃ placed, nodes = [placed] ∧ placed.bare = node := by
    match nodes, hnodes with
    | [placed], hnodes => exact ⟨placed, rfl, (List.cons.inj hnodes).1⟩
  refine ⟨placed, ?_, rfl⟩
  rw [Language.parse]
  split
  · next heq =>
    cases hm.symm.trans (congrArg Prod.fst heq)
    rfl
  · next hne heq =>
    exact (hne _ _ placed hle hlength ((congrArg Prod.fst heq).symm.trans hm)).elim

/-- A text that a symbol is not found in is refused. -/
theorem Language.Ordered.parse_of_not_derives (hg : g.Ordered) {symbol : σ} {s : List Char}
    (h : Derives g g.reader (.call symbol) s none) : ∃ tried, g.parse symbol s = .error tried := by
  have hrun := (hg.derives_iff (hg.startsBelow_top _) s 0 .none).1 h
  rw [Language.parse]
  split
  · next heq => simp [heq] at hrun
  · exact ⟨_, rfl⟩

/-! ### Two readers -/

variable {R : Reader σ S} {R' : Reader σ S'}

/-- Two readers go from `s` to `t` and from `s'` to `t'`: neither moves, or both get on. -/
inductive Pace (R : Reader σ S) (R' : Reader σ S') : S → S → S' → S' → Prop
  | stay {s s'} : Pace R R' s s s' s'
  | go {s t s' t'} (h : R.size t < R.size s) (h' : R'.size t' < R'.size s') : Pace R R' s t s' t'

theorem Pace.lt_iff {s t : S} {s' t' : S'} (h : Pace R R' s t s' t') :
    R.size t < R.size s ↔ R'.size t' < R'.size s' := by
  cases h with
  | stay => simp
  | go h h' => exact ⟨fun _ ↦ h', fun _ ↦ h⟩

/-- Two looks with one answer: what was found is the same, and what is left is related. -/
inductive SameAnswer {α : Type} (P : S → S' → Prop) : Option (α × S) → Option (α × S') → Prop
  | some {a t t'} (h : P t t') : SameAnswer P (some (a, t)) (some (a, t'))
  | none : SameAnswer P none none

/-- Every fixed text in a pattern has the property `P`. -/
def Pattern.TextsIn (P : List Char → Prop) : Pattern σ → Prop
  | .text chars => P chars
  | .call _ => True
  | .seq a b | .choice a b => a.TextsIn P ∧ b.TextsIn P
  | .optional a | .many a | .absent a => a.TextsIn P

/-- One reader sees what another one sees of tokens and of fixed texts with the property `P`. `Near`
relates what they have left to read; `Ready` relates it where they look for the next token, with
nothing left to pass over. -/
structure Follows (R : Reader σ S) (R' : Reader σ S') (P : List Char → Prop)
    (Near Ready : S → S' → Prop) : Prop where
  near {s s'} : Ready s s' → Near s s'
  skip_eq {s s'} : Ready s s' → R.skip s = s ∧ R'.skip s' = s'
  skip {t t'} : Near t t' → Ready (R.skip t) (R'.skip t')
  size_skip_le t : R.size (R.skip t) ≤ R.size t
  size_skip_le' t : R'.size (R'.skip t) ≤ R'.size t
  token {s s' symbol r} : Ready s s' → R.token symbol s r → ∃ r', R'.token symbol s' r' ∧
    SameAnswer (fun t t' ↦ Near t t' ∧ Pace R R' s t s' t') r r'
  text {s s' chars r} : P chars → Ready s s' → R.text chars s r → ∃ r', R'.text chars s' r' ∧
    Option.Rel (fun t t' ↦ Near t t' ∧ Pace R R' s t s' t') r r'

/-- Passing over what separates tokens changes nothing about who got on. -/
theorem Pace.skip {P : List Char → Prop} {Near Ready : S → S' → Prop}
    (hR : Follows R R' P Near Ready) {s t : S} {s' t' : S'} (hs : Ready s s')
    (h : Pace R R' s t s' t') : Pace R R' s (R.skip t) s' (R'.skip t') := by
  cases h with
  | stay =>
    obtain ⟨h, h'⟩ := hR.skip_eq hs
    rw [h, h']
    exact .stay
  | go h h' =>
    exact .go (Nat.lt_of_le_of_lt (hR.size_skip_le t) h)
      (Nat.lt_of_le_of_lt (hR.size_skip_le' t') h')

theorem Pace.trans {s t u : S} {s' t' u' : S'} (h : Pace R R' s t s' t')
    (h' : Pace R R' t u t' u') : Pace R R' s u s' u' := by
  cases h with
  | stay => exact h'
  | go h₁ h₂ =>
    cases h' with
    | stay => exact .go h₁ h₂
    | go h₃ h₄ => exact .go (Nat.lt_trans h₃ h₁) (Nat.lt_trans h₄ h₂)

/-- A reader that sees what another one sees derives the same nodes. -/
theorem Derives.transfer {P : List Char → Prop} {Near Ready : S → S' → Prop}
    (hR : Follows R R' P Near Ready)
    (hg : ∀ {symbol body}, g.rule symbol = .phrase true body → body.TextsIn P)
    {p : Pattern σ} {s : S} {s' : S'} {r : Option (List (Node σ) × S)} (h : Derives g R p s r)
    (hp : p.TextsIn P) (hs : Ready s s') : ∃ r', Derives g R' p s' r' ∧
      SameAnswer (fun t t' ↦ Near t t' ∧ Pace R R' s t s' t') r r' := by
  induction h generalizing s' with
  | text h =>
    obtain ⟨_, h', ⟨hnear⟩⟩ := hR.text hp hs h
    exact ⟨_, .text h', .some hnear⟩
  | noText h =>
    obtain ⟨_, h', ⟨⟩⟩ := hR.text hp hs h
    exact ⟨_, .noText h', .none⟩
  | token h =>
    obtain ⟨_, h', ⟨hnear⟩⟩ := hR.token hs h
    exact ⟨_, .token h', .some hnear⟩
  | noToken h =>
    obtain ⟨_, h', ⟨⟩⟩ := hR.token hs h
    exact ⟨_, .noToken h', .none⟩
  | phrase hrule h ih =>
    obtain ⟨_, h', ⟨hnear⟩⟩ := ih (hg hrule) hs
    exact ⟨_, .phrase hrule h', .some hnear⟩
  | noPhrase hrule h ih =>
    obtain ⟨_, h', ⟨⟩⟩ := ih (hg hrule) hs
    exact ⟨_, .noPhrase hrule h', .none⟩
  | seq ha hb iha ihb =>
    obtain ⟨_, ha', ⟨hnear, hpace⟩⟩ := iha hp.1 hs
    obtain ⟨_, hb', ⟨hnear', hpace'⟩⟩ := ihb hp.2 (hR.skip hnear)
    exact ⟨_, .seq ha' hb', .some ⟨hnear', (hpace.skip hR hs).trans hpace'⟩⟩
  | noFirst ha iha =>
    obtain ⟨_, ha', ⟨⟩⟩ := iha hp.1 hs
    exact ⟨_, .noFirst ha', .none⟩
  | noSecond ha hb iha ihb =>
    obtain ⟨_, ha', ⟨hnear, -⟩⟩ := iha hp.1 hs
    obtain ⟨_, hb', ⟨⟩⟩ := ihb hp.2 (hR.skip hnear)
    exact ⟨_, .noSecond ha' hb', .none⟩
  | left ha iha =>
    obtain ⟨_, ha', ⟨hnear⟩⟩ := iha hp.1 hs
    exact ⟨_, .left ha', .some hnear⟩
  | right ha hb iha ihb =>
    obtain ⟨_, ha', ⟨⟩⟩ := iha hp.1 hs
    obtain ⟨_, hb', hm⟩ := ihb hp.2 hs
    exact ⟨_, .right ha' hb', hm⟩
  | present h ih =>
    obtain ⟨_, h', ⟨hnear⟩⟩ := ih hp hs
    exact ⟨_, .present h', .some hnear⟩
  | missing h ih =>
    obtain ⟨_, h', ⟨⟩⟩ := ih hp hs
    exact ⟨_, .missing h', .some ⟨hR.near hs, .stay⟩⟩
  | done h ih =>
    obtain ⟨_, h', ⟨⟩⟩ := ih hp hs
    exact ⟨_, .done h', .some ⟨hR.near hs, .stay⟩⟩
  | stuck h hsize ih =>
    obtain ⟨_, h', ⟨hnear, hpace⟩⟩ := ih hp hs
    have hsize' := (not_congr (hpace.skip hR hs).lt_iff).1 hsize
    exact ⟨_, .stuck h' hsize', .some ⟨hnear, hpace⟩⟩
  | last h hsize hmore hlast ih ihmore =>
    obtain ⟨_, h', ⟨hnear, hpace⟩⟩ := ih hp hs
    obtain ⟨_, hmore', ⟨hnear', hpace'⟩⟩ := ihmore hp (hR.skip hnear)
    have hsize' := (hpace.skip hR hs).lt_iff.1 hsize
    have hlast' := (not_congr hpace'.lt_iff).1 hlast
    exact ⟨_, .last h' hsize' hmore' hlast', .some ⟨hnear, hpace⟩⟩
  | more h hsize hmore hnext ih ihmore =>
    obtain ⟨_, h', ⟨hnear, hpace⟩⟩ := ih hp hs
    obtain ⟨_, hmore', ⟨hnear', hpace'⟩⟩ := ihmore hp (hR.skip hnear)
    have hstep := hpace.skip hR hs
    have hsize' := hstep.lt_iff.1 hsize
    have hnext' := hpace'.lt_iff.1 hnext
    exact ⟨_, .more h' hsize' hmore' hnext', .some ⟨hnear', hstep.trans hpace'⟩⟩
  | found h ih =>
    obtain ⟨_, h', ⟨-⟩⟩ := ih hp hs
    exact ⟨_, .found h', .none⟩
  | notFound h ih =>
    obtain ⟨_, h', ⟨⟩⟩ := ih hp hs
    exact ⟨_, .notFound h', .some ⟨hR.near hs, .stay⟩⟩

end Snippet.Grammar
