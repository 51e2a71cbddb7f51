import Snippet.Proofs.Derivation

/-!
# Where nodes stand

Every node that matching finds stands in the text: it does not end before its start nor behind the
end of the text, its parts lie inside it, and a token has the characters that stand there
(`Language.Bounded.stands_parse`). The place that explains a failure lies in the text as well
(`Language.Bounded.place_le_of_parse`).

All that is asked of the language is that its lexemes take no more than there is. What a pattern
finds is described by the symbols of the nodes (`Pattern.Shape`), so that one can tell from a phrase
which parts it has.
-/

namespace Snippet.Grammar

variable {σ : Type} {g : Language σ} {source s : List Char} {place : Nat} {p : Pattern σ}

/-- The symbols of the nodes that a pattern may find. -/
def Pattern.Shape : Pattern σ → List σ → Prop
  | .text _, symbols => symbols = []
  | .call symbol, symbols => symbols = [symbol]
  | .seq a b, symbols => ∃ front back, symbols = front ++ back ∧ a.Shape front ∧ b.Shape back
  | .choice a b, symbols => a.Shape symbols ∨ b.Shape symbols
  | .optional a, symbols => symbols = [] ∨ a.Shape symbols
  | .many a, symbols => ∃ groups : List (List σ), symbols = groups.flatten ∧
      ∀ group ∈ groups, a.Shape group
  | .absent _, symbols => symbols = []

/-- What a pattern finds once is what its repetition may find. -/
theorem Pattern.shape_many {a : Pattern σ} {group : List σ} (h : a.Shape group) :
    a.many.Shape group :=
  ⟨[group], by simp, by simpa using h⟩

/-- The lexemes of a language take no more than there is. -/
def Language.Bounded (g : Language σ) : Prop :=
  ∀ symbol lexeme, g.rule symbol = .token lexeme → ∀ s n, lexeme s = some n → n ≤ s.length

/-- A node that stands in a text as its symbol asks for. -/
inductive Node.Stands (g : Language σ) (source : List Char) : Node σ → Prop
  | token {symbol start stop lexeme} (hrule : g.rule symbol = .token lexeme)
      (hlexeme : lexeme (source.drop start) = some (stop - start)) (hle : start ≤ stop)
      (hstop : stop ≤ source.length) :
      Stands g source (.mk symbol (start, stop) ((source.drop start).take (stop - start)) [])
  | phrase {symbol spaced body start stop parts} (hrule : g.rule symbol = .phrase spaced body)
      (hshape : body.Shape (parts.map Node.symbol)) (hle : start ≤ stop)
      (hstop : stop ≤ source.length) (hparts : ∀ part ∈ parts, Stands g source part)
      (hinside : ∀ part ∈ parts, start ≤ part.start ∧ part.stop ≤ stop) :
      Stands g source (.mk symbol (start, stop) [] parts)

namespace Node.Stands

variable {node inner : Node σ}

theorem start_le (h : node.Stands g source) : node.start ≤ node.stop := by
  cases h with
  | token _ _ hle _ => exact hle
  | phrase _ _ hle _ _ _ => exact hle

theorem stop_le (h : node.Stands g source) : node.stop ≤ source.length := by
  cases h with
  | token _ _ _ hstop => exact hstop
  | phrase _ _ _ hstop _ _ => exact hstop

theorem part (h : node.Stands g source) (hinner : inner ∈ node.parts) : inner.Stands g source := by
  cases h with
  | token _ _ _ _ => nomatch hinner
  | phrase _ _ _ _ hparts _ => exact hparts inner hinner

theorem part_inside (h : node.Stands g source) (hinner : inner ∈ node.parts) :
    node.start ≤ inner.start ∧ inner.stop ≤ node.stop := by
  cases h with
  | token _ _ _ _ => nomatch hinner
  | phrase _ _ _ _ _ hinside => exact hinside inner hinner

/-- A token has the characters that stand where it stands. -/
theorem text_eq {lexeme : Recogniser} (h : node.Stands g source)
    (hrule : g.rule node.symbol = .token lexeme) :
    node.text = (source.drop node.start).take (node.stop - node.start) ∧
      lexeme (source.drop node.start) = some (node.stop - node.start) := by
  cases h with
  | token hrule' hlexeme _ _ =>
    cases hrule.symm.trans hrule'
    exact ⟨rfl, hlexeme⟩
  | phrase hrule' _ _ _ _ _ => cases hrule.symm.trans hrule'

end Node.Stands

/-! ### Matching -/

/-- A match of a pattern whose nodes stand in a text, one after the other or not, between its start
and its end. -/
structure Match.Stands (g : Language σ) (source : List Char) (p : Pattern σ)
    (m : Match σ s place) : Prop where
  rest : m.rest = source.drop m.stop
  stop : m.stop ≤ source.length
  nodes : ∀ node ∈ m.nodes, node.Stands g source
  inside : ∀ node ∈ m.nodes, place ≤ node.start ∧ node.stop ≤ m.stop
  shape : p.Shape (m.nodes.map Node.symbol)

/-- As many characters are passed over as asked for, or all that there are. -/
theorem advance_fst (n : Nat) (s : List Char) : (advance n s).1 = min n s.length := by
  have := length_advance n s
  rw [advance_snd, List.length_drop] at this
  omega

namespace Match

variable {m : Match σ s place}

/-- Nothing but characters is taken. -/
theorem stands_take (hs : s = source.drop place) (hplace : place ≤ source.length) (n : Nat)
    (hp : p.Shape []) : (take s place n []).Stands g source p where
  rest := by
    show (advance n s).2 = source.drop (place + (advance n s).1)
    rw [advance_snd, advance_fst, hs, List.drop_drop, List.length_drop]
    rcases Nat.le_total n (source.length - place) with hle | hle
    · rw [Nat.min_eq_left hle]
    · rw [Nat.min_eq_right hle, List.drop_eq_nil_of_le (by omega),
        List.drop_eq_nil_of_le (by omega)]
  stop := by
    show place + (advance n s).1 ≤ source.length
    rw [advance_fst, hs, List.length_drop]
    omega
  nodes := List.forall_mem_nil _
  inside := List.forall_mem_nil _
  shape := hp

/-- A pattern that may find nothing finds it here. -/
theorem stands_nothing (hs : s = source.drop place) (hplace : place ≤ source.length)
    (hp : p.Shape []) : (nothing s place : Match σ s place).Stands g source p :=
  ⟨hs, hplace, List.forall_mem_nil _, List.forall_mem_nil _, hp⟩

/-- A token is found. -/
theorem stands_token {symbol : σ} {lexeme : Recogniser} {n : Nat} (hs : s = source.drop place)
    (hplace : place ≤ source.length) (hrule : g.rule symbol = .token lexeme)
    (hlexeme : lexeme s = some n) (hn : n ≤ s.length) :
    (take s place n [.mk symbol (place, place + n) (s.take n) []]).Stands g source
      (.call symbol) where
  rest := (stands_take (g := g) (p := .text []) hs hplace n rfl).rest
  stop := (stands_take (g := g) (p := .text []) hs hplace n rfl).stop
  nodes node hnode := by
    obtain rfl := List.mem_singleton.1 hnode
    subst hs
    rw [List.length_drop] at hn
    have hsub : place + n - place = n := Nat.add_sub_cancel_left ..
    have h : Node.Stands g source (.mk symbol (place, place + n)
        ((source.drop place).take (place + n - place)) []) :=
      .token hrule (by rw [hsub]; exact hlexeme) (Nat.le_add_right ..) (by omega)
    rwa [hsub] at h
  inside node hnode := by
    obtain rfl := List.mem_singleton.1 hnode
    refine ⟨Nat.le_refl _, ?_⟩
    show place + n ≤ place + (advance n s).1
    rw [advance_fst]
    omega
  shape := rfl

/-- The parts of a phrase become one node. -/
theorem Stands.wrap {symbol : σ} {spaced : Bool} {body : Pattern σ}
    (hrule : g.rule symbol = .phrase spaced body) (h : m.Stands g source body) :
    (m.wrap symbol).Stands g source (.call symbol) where
  rest := h.rest
  stop := h.stop
  nodes node hnode := by
    obtain rfl := List.mem_singleton.1 hnode
    exact .phrase hrule h.shape m.le h.stop h.nodes h.inside
  inside node hnode := by
    obtain rfl := List.mem_singleton.1 hnode
    exact ⟨Nat.le_refl _, Nat.le_refl _⟩
  shape := rfl

theorem Stands.skip (h : m.Stands g source p) (gap : Nat) : (m.skip gap).Stands g source p := by
  have hgap := stands_take (g := g) (p := .text []) h.rest h.stop gap rfl
  refine ⟨hgap.rest, hgap.stop, h.nodes, fun node hnode ↦ ?_, h.shape⟩
  obtain ⟨hstart, hstop⟩ := h.inside node hnode
  exact ⟨hstart, Nat.le_trans hstop (Nat.le_add_right ..)⟩

/-- A match goes on in another one. -/
theorem Stands.append {q r : Pattern σ} {n : Match σ m.rest m.stop} (h : m.Stands g source p)
    (h' : n.Stands g source q)
    (hr : ∀ front back, p.Shape front → q.Shape back → r.Shape (front ++ back)) :
    (m.append n).Stands g source r where
  rest := h'.rest
  stop := h'.stop
  nodes := List.forall_mem_append.2 ⟨h.nodes, h'.nodes⟩
  inside := List.forall_mem_append.2
    ⟨fun node hnode ↦ ⟨(h.inside node hnode).1, Nat.le_trans (h.inside node hnode).2 n.le⟩,
      fun node hnode ↦ ⟨Nat.le_trans m.le (h'.inside node hnode).1, (h'.inside node hnode).2⟩⟩
  shape := by
    show r.Shape ((m.nodes ++ n.nodes).map Node.symbol)
    rw [List.map_append]
    exact hr _ _ h.shape h'.shape

theorem Stands.of_shape {q : Pattern σ} (h : m.Stands g source p)
    (hq : ∀ symbols, p.Shape symbols → q.Shape symbols) : m.Stands g source q :=
  { h with shape := hq _ h.shape }

end Match

theorem Attempts.place_note_le {tried : Attempts σ} (symbol : σ) (before : Nat)
    (htried : tried.place ≤ source.length) (hplace : place ≤ source.length) :
    (tried.note symbol place before).place ≤ source.length := by
  unfold Attempts.note
  repeat' split
  all_goals assumption

/-- What matching answers with at a place of a text: a match that stands there, if any, and a place
in the text up to which it has come. -/
structure Answered (g : Language σ) (source : List Char) (p : Pattern σ)
    (answer : Option (Match σ s place) × Attempts σ) : Prop where
  found : ∀ m ∈ answer.1, m.Stands g source p
  tried : answer.2.place ≤ source.length

theorem answered_none (p : Pattern σ) {tried : Attempts σ} (h : tried.place ≤ source.length) :
    Answered g source p ((none, tried) : Option (Match σ s place) × Attempts σ) :=
  ⟨nofun, h⟩

theorem answered_some {m : Match σ s place} {tried : Attempts σ} (hm : m.Stands g source p)
    (h : tried.place ≤ source.length) : Answered g source p (some m, tried) :=
  ⟨fun _ heq ↦ Option.some.inj heq ▸ hm, h⟩

/-- Nothing is found but what stands in the text. -/
theorem Language.Bounded.answered_run (hg : g.Bounded) (source : List Char) (spaced : Bool)
    (limit : Nat) (p : Pattern σ) (s : List Char) (place : Nat) (tried : Attempts σ)
    (hs : s = source.drop place) (hplace : place ≤ source.length)
    (htried : tried.place ≤ source.length) :
    Answered g source p (g.run spaced limit p s place tried) := by
  fun_induction Language.run g spaced limit p s place tried with
  | case1 spaced limit s place tried chars =>
    split
    · exact answered_some (Match.stands_take hs hplace _ rfl) htried
    · exact answered_none _ htried
  | case2 _ _ s _ _ _ lexeme hrule n hn =>
    exact answered_some (Match.stands_token hs hplace hrule hn (hg _ _ hrule _ _ hn)) htried
  | case3 _ _ s _ _ _ _ lexeme hrule hn =>
    exact answered_none _ (Attempts.place_note_le _ _ htried hplace)
  | case4 _ _ s place _ symbol inner body hrule _ m _ hrun ih =>
    have h := ih hs hplace htried
    rw [hrun] at h
    exact answered_some ((h.found m rfl).wrap hrule) h.tried
  | case5 _ _ s place _ symbol _ inner body hrule _ _ hrun ih =>
    have h := ih hs hplace htried
    rw [hrun] at h
    exact answered_none _ (Attempts.place_note_le _ _ h.tried hplace)
  | case6 _ limit _ _ _ symbol inner body hrule hrank => exact answered_none _ htried
  | case7 _ limit s _ _ a b _ hrun ih =>
    have h := ih hs hplace htried
    rw [hrun] at h
    exact answered_none _ h.tried
  | case8 _ limit s place _ a b m _ hrun next n tried' hrun₂ iha ihb ihb' =>
    have ha := iha hs hplace htried
    rw [hrun] at ha
    have hnext : next.Stands g source a := (ha.found m rfl).skip _
    have hb : Answered g source b (n, tried') := by
      split at hrun₂
      · next hlt =>
        have h := ihb hlt hnext.rest hnext.stop ha.tried
        rwa [hrun₂] at h
      · next hlt =>
        have h := ihb' hlt hnext.rest hnext.stop ha.tried
        rwa [hrun₂] at h
    cases n with
    | none => exact answered_none _ hb.tried
    | some n =>
      exact answered_some (hnext.append (hb.found n rfl) fun front back hfront hback ↦
        ⟨front, back, rfl, hfront, hback⟩) hb.tried
  | case9 _ _ s _ _ a b m _ hrun ih =>
    have h := ih hs hplace htried
    rw [hrun] at h
    exact answered_some ((h.found m rfl).of_shape fun _ ↦ .inl) h.tried
  | case10 _ _ s _ _ a b _ hrun iha ihb =>
    have h := iha hs hplace htried
    rw [hrun] at h
    have h' := ihb hs hplace h.tried
    exact ⟨fun m hm ↦ (h'.found m hm).of_shape fun _ ↦ .inr, h'.tried⟩
  | case11 _ _ s _ _ a m _ hrun ih =>
    have h := ih hs hplace htried
    rw [hrun] at h
    exact answered_some ((h.found m rfl).of_shape fun _ ↦ .inr) h.tried
  | case12 _ _ s _ _ a _ hrun ih =>
    have h := ih hs hplace htried
    rw [hrun] at h
    exact answered_some (Match.stands_nothing hs hplace (.inl rfl)) h.tried
  | case13 _ _ s _ _ a _ hrun ih =>
    have h := ih hs hplace htried
    rw [hrun] at h
    exact answered_some (Match.stands_nothing hs hplace ⟨[], rfl, List.forall_mem_nil _⟩) h.tried
  | case14 _ _ s place _ a m _ hrun next hnext _ more _ hmore ih ihmore =>
    have h := ih hs hplace htried
    rw [hrun] at h
    have hm := h.found m rfl
    have hfront : next.Stands g source a := hm.skip _
    have h' := ihmore hfront.rest hfront.stop h.tried
    rw [hmore] at h'
    split
    · refine answered_some (hfront.append (h'.found more rfl) fun front back hfront hback ↦ ?_)
        h'.tried
      obtain ⟨groups, rfl, hgroups⟩ := hback
      exact ⟨front :: groups, rfl, List.forall_mem_cons.2 ⟨hfront, hgroups⟩⟩
    · exact answered_some (hm.of_shape fun _ ↦ Pattern.shape_many) h'.tried
  | case15 _ _ s place _ a m _ hrun next hnext _ _ hmore ih ihmore =>
    have h := ih hs hplace htried
    rw [hrun] at h
    have hm := h.found m rfl
    have hfront : next.Stands g source a := hm.skip _
    have h' := ihmore hfront.rest hfront.stop h.tried
    rw [hmore] at h'
    exact answered_some (hm.of_shape fun _ ↦ Pattern.shape_many) h'.tried
  | case16 _ _ s place _ a m _ hrun next hnext ih =>
    have h := ih hs hplace htried
    rw [hrun] at h
    exact answered_some ((h.found m rfl).of_shape fun _ ↦ Pattern.shape_many) h.tried
  | case17 _ _ s _ _ a m hrun ih => exact answered_none _ htried
  | case18 _ _ s _ _ a hrun ih =>
    exact answered_some (Match.stands_nothing hs hplace rfl) htried

/-- The node of a whole text stands in it. -/
theorem Language.Bounded.stands_parse (hg : g.Bounded) {symbol : σ} {node : Node σ}
    (h : g.parse symbol source = .ok node) :
    node.Stands g source ∧ node.symbol = symbol := by
  have hrun := hg.answered_run source true g.top (.call symbol) source 0 .none rfl
    (Nat.zero_le _) (Nat.zero_le _)
  rw [Language.parse] at h
  split at h
  · next heq =>
    cases h
    rw [heq] at hrun
    have hfound := hrun.found _ rfl
    refine ⟨hfound.nodes node (List.mem_singleton.2 rfl), ?_⟩
    have hshape : [node.symbol] = [symbol] := hfound.shape
    exact (List.cons.inj hshape).1
  · cases h

/-- Where a symbol is found, there is a node for it. -/
theorem Language.Bounded.exists_parse (hg : g.Bounded) {symbol : σ}
    (h : (g.run true g.top (.call symbol) source 0 .none).1.isSome = true) :
    ∃ node, g.parse symbol source = .ok node := by
  have hrun := hg.answered_run source true g.top (.call symbol) source 0 .none rfl
    (Nat.zero_le _) (Nat.zero_le _)
  obtain ⟨m, hm⟩ := Option.isSome_iff_exists.1 h
  obtain ⟨node, hnodes, -⟩ := List.map_eq_singleton_iff.1 (hrun.found m hm).shape
  refine ⟨node, ?_⟩
  obtain ⟨rest, stop, nodes, hle, hlength⟩ := m
  obtain rfl : nodes = [node] := hnodes
  rw [Language.parse]
  split
  · next heq =>
    cases hm.symm.trans (congrArg Prod.fst heq)
    rfl
  · next hne heq => exact (hne _ _ node hle hlength ((congrArg Prod.fst heq).symm.trans hm)).elim

/-- A failure is explained at a place in the text. -/
theorem Language.Bounded.place_le_of_parse (hg : g.Bounded) {symbol : σ} {tried : Attempts σ}
    (h : g.parse symbol source = .error tried) : tried.place ≤ source.length := by
  have hrun := hg.answered_run source true g.top (.call symbol) source 0 .none rfl
    (Nat.zero_le _) (Nat.zero_le _)
  rw [Language.parse] at h
  split at h
  · cases h
  · next heq =>
    cases h
    rw [heq] at hrun
    exact hrun.tried

end Snippet.Grammar
