import Snippet.Proofs.NodePlaces

/-!
# Matches at their places

A derivation has no places. `Language.Found` says what a pattern finds at a place of a text, with
the places of the nodes, whatever has been tried before and with whatever bound on the ranks. There
is a lemma for each way to match a pattern, so that the nodes of a text can be put together as its
derivation is (`Language.Found.derives`), up to the node of the whole text (`Language.Found.parse`).

The same pattern may be matched on a text and, at another place, on that text with more behind it.
`Carried` compares the two answers: the second match is the first one with its places moved
(`Match.Moved`), or the second one takes some of what stands behind.
-/

namespace Snippet.Grammar

variable {σ : Type} {g : Language σ}

/-! ### What is found -/

/-- What matching a pattern with blanks between its parts finds. -/
abbrev Language.answer (g : Language σ) (limit : Nat) (p : Pattern σ) (s : List Char) (place : Nat)
    (tried : Attempts σ) : Option (Match σ s place) :=
  (g.run true limit p s place tried).1

section Answers

variable {limit place : Nat} {s : List Char} {tried : Attempts σ} {a b : Pattern σ} {symbol : σ}

theorem answer_text (chars : List Char) :
    g.answer limit (.text chars) s place tried =
      if chars.isPrefixOf s then some (.take s place chars.length []) else none := by
  rw [Language.answer, Language.run]

theorem answer_token {lexeme : Recogniser} (hrule : g.rule symbol = .token lexeme) :
    g.answer limit (.call symbol) s place tried =
      (lexeme s).map fun n ↦ .take s place n [.mk symbol (place, place + n) (s.take n) []] := by
  rw [Language.answer, Language.run, hrule]
  dsimp only
  cases lexeme s <;> rfl

theorem answer_phrase {body : Pattern σ} (hrule : g.rule symbol = .phrase true body)
    (hrank : g.rank symbol < limit) :
    g.answer limit (.call symbol) s place tried =
      (g.answer (g.rank symbol) body s place tried).map (·.wrap symbol) := by
  rw [Language.answer, Language.run, hrule]
  simp only [dif_pos hrank, Language.answer]
  rcases g.run true (g.rank symbol) body s place tried with ⟨- | m, _⟩ <;> rfl

/-- Behind the first part of a sequence and the blanks there, its second part is looked for, with no
bound where characters have been taken. -/
theorem answer_seq :
    g.answer limit (.seq a b) s place tried =
      (g.answer limit a s place tried).bind fun m ↦
        let next := m.skip (g.gap true m.rest)
        (g.answer (if place < next.stop then g.top else limit) b next.rest next.stop
          (g.run true limit a s place tried).2).map next.append := by
  rw [Language.answer, Language.run, Language.answer]
  rcases g.run true limit a s place tried with ⟨- | m, _⟩
  · rfl
  · dsimp only [Option.bind_some]
    split <;> rfl

theorem answer_choice :
    g.answer limit (.choice a b) s place tried =
      (g.answer limit a s place tried).or
        (g.answer limit b s place (g.run true limit a s place tried).2) := by
  rw [Language.answer, Language.run, Language.answer]
  rcases g.run true limit a s place tried with ⟨- | m, _⟩ <;> rfl

theorem answer_optional :
    g.answer limit (.optional a) s place tried =
      some ((g.answer limit a s place tried).getD (.nothing s place)) := by
  rw [Language.answer, Language.run, Language.answer]
  rcases g.run true limit a s place tried with ⟨- | m, _⟩ <;> rfl

/-- A repetition always matches. Blanks behind its last part are given back. -/
theorem answer_many :
    g.answer limit (.many a) s place tried =
      some ((g.answer limit a s place tried).elim (.nothing s place) fun m ↦
        let next := m.skip (g.gap true m.rest)
        if place < next.stop then
          (g.answer g.top (.many a) next.rest next.stop
            (g.run true limit a s place tried).2).elim m fun more ↦
              if next.stop < more.stop then next.append more else m
        else m) := by
  rw [Language.answer, Language.run, Language.answer]
  rcases g.run true limit a s place tried with ⟨- | m, _⟩
  · rfl
  · dsimp only [Language.answer, Option.elim_some]
    split
    · rcases g.run true g.top (.many a) _ _ _ with ⟨- | more, _⟩ <;> rfl
    · rfl

theorem Language.Ordered.derives_answer (hg : g.Ordered) {p : Pattern σ}
    (hp : p.StartsBelow g limit) (s : List Char) (place : Nat) (tried : Attempts σ) :
    Derives g g.reader p s ((g.answer limit p s place tried).map Match.bare) :=
  hg.derives_run limit p s place tried rfl hp

/-- The second part of a sequence may be entered where it is looked for. -/
theorem Language.Ordered.startsBelow_second (hg : g.Ordered)
    (hp : (Pattern.seq a b).StartsBelow g limit) {m : Match σ s place}
    (h : g.answer limit a s place tried = some m) (gap : Nat) :
    b.StartsBelow g (if place < (m.skip gap).stop then g.top else limit) := by
  split
  · exact hg.startsBelow_top b
  · next hlt =>
    refine hp.seq.2.resolve_right fun ⟨c, chars, heq⟩ ↦ hlt ?_
    subst heq
    exact Nat.lt_of_lt_of_le (lt_stop_of_text (Prod.ext h rfl)) (Nat.le_add_right _ _)

theorem Language.Ordered.answer_eq_none (hg : g.Ordered) (h : Derives g g.reader a s none)
    (hlimit : a.StartsBelow g limit) (place : Nat) (tried : Attempts σ) :
    g.answer limit a s place tried = none :=
  Option.map_eq_none_iff.1 ((hg.derives_answer hlimit s place tried).unique h)

end Answers

/-! ### Matches at a place -/

/-- The pattern matches at a place of a text, wherever it is asked for there: with these nodes, up
to `stop`, where `t` is left. -/
def Language.Found (g : Language σ) (p : Pattern σ) (s : List Char) (place : Nat)
    (nodes : List (Node σ)) (t : List Char) (stop : Nat) : Prop :=
  ∀ limit tried, p.StartsBelow g limit → ∃ m : Match σ s place,
    g.answer limit p s place tried = some m ∧ m.nodes = nodes ∧ m.rest = t ∧ m.stop = stop

namespace Language.Found

variable {a b : Pattern σ} {s t u : List Char} {place stop next last n : Nat}
  {ns ms : List (Node σ)} {symbol : σ}

theorem token {lexeme : Recogniser} (hrule : g.rule symbol = .token lexeme)
    (hn : lexeme s = some n) (hle : n ≤ s.length) :
    g.Found (.call symbol) s place [.mk symbol (place, place + n) (s.take n) []] (s.drop n)
      (place + n) := by
  intro limit tried _
  rw [answer_token hrule, hn]
  refine ⟨_, rfl, rfl, advance_snd n s, ?_⟩
  show place + (advance n s).1 = place + n
  rw [advance_fst, Nat.min_eq_left hle]

theorem text {chars rest : List Char} (place : Nat) :
    g.Found (.text chars) (chars ++ rest) place [] rest (place + chars.length) := by
  intro limit tried _
  rw [answer_text, if_pos (List.isPrefixOf_iff_prefix.2 (List.prefix_append chars rest))]
  refine ⟨_, rfl, rfl, ?_, ?_⟩
  · exact (advance_snd _ _).trans (List.drop_left ..)
  · show place + (advance chars.length (chars ++ rest)).1 = _
    rw [advance_fst, List.length_append, Nat.min_eq_left (Nat.le_add_right _ _)]

theorem phrase (hg : g.Ordered) {body : Pattern σ} (hrule : g.rule symbol = .phrase true body)
    (h : g.Found body s place ns t stop) :
    g.Found (.call symbol) s place [.mk symbol (place, stop) [] ns] t stop := by
  intro limit tried hlimit
  rw [Pattern.StartsBelow, hrule] at hlimit
  obtain ⟨m, hm, rfl, rfl, rfl⟩ := h (g.rank symbol) tried (hg.starts hrule)
  rw [answer_phrase hrule hlimit, hm]
  exact ⟨_, rfl, rfl, rfl, rfl⟩

theorem seq (hg : g.Ordered) (ha : g.Found a s place ns t stop)
    (hnext : (g.reader.skip t).length + next = t.length + stop)
    (hb : g.Found b (g.reader.skip t) next ms u last) :
    g.Found (.seq a b) s place (ns ++ ms) u last := by
  intro limit tried hlimit
  obtain ⟨m, hm, rfl, rfl, rfl⟩ := ha limit tried hlimit.seq.1
  have hbelow := hg.startsBelow_second hlimit hm (g.gap true m.rest)
  obtain rfl : (m.skip (g.gap true m.rest)).stop = next := by
    have hskip := (m.skip (g.gap true m.rest)).length_add
    rw [m.rest_skip, ← m.length_add] at hskip
    omega
  rw [← m.rest_skip] at hb
  obtain ⟨n, hn, rfl, rfl, rfl⟩ := hb _ (g.run true limit a s place tried).2 hbelow
  rw [answer_seq, hm]
  refine ⟨(m.skip (g.gap true m.rest)).append n, ?_, rfl, rfl, rfl⟩
  exact congrArg (Option.map (m.skip (g.gap true m.rest)).append) hn

theorem left (h : g.Found a s place ns t stop) :
    g.Found (.choice a b) s place ns t stop := by
  intro limit tried hlimit
  obtain ⟨m, hm, hrest⟩ := h limit tried hlimit.1
  exact ⟨m, by rw [answer_choice, hm, Option.some_or], hrest⟩

theorem right (hg : g.Ordered) (ha : Derives g g.reader a s none)
    (h : g.Found b s place ns t stop) : g.Found (.choice a b) s place ns t stop := by
  intro limit tried hlimit
  obtain ⟨m, hm, hrest⟩ := h limit (g.run true limit a s place tried).2 hlimit.2
  exact ⟨m, by rw [answer_choice, hg.answer_eq_none ha hlimit.1, Option.none_or, hm], hrest⟩

theorem present (h : g.Found a s place ns t stop) :
    g.Found (.optional a) s place ns t stop := by
  intro limit tried hlimit
  obtain ⟨m, hm, hrest⟩ := h limit tried hlimit
  exact ⟨m, by rw [answer_optional, hm, Option.getD_some], hrest⟩

theorem missing (hg : g.Ordered) (h : Derives g g.reader a s none) (place : Nat) :
    g.Found (.optional a) s place [] s place := by
  intro limit tried hlimit
  rw [answer_optional, hg.answer_eq_none h hlimit]
  exact ⟨_, rfl, rfl, rfl, rfl⟩

theorem done (hg : g.Ordered) (h : Derives g g.reader a s none) (place : Nat) :
    g.Found (.many a) s place [] s place := by
  intro limit tried hlimit
  rw [answer_many, hg.answer_eq_none h hlimit]
  exact ⟨_, rfl, rfl, rfl, rfl⟩

/-- A repetition of what is found only once. -/
theorem once (hg : g.Ordered) (h : g.Found a s place ns t stop)
    (hdone : Derives g g.reader a (g.reader.skip t) none) :
    g.Found (.many a) s place ns t stop := by
  intro limit tried hlimit
  obtain ⟨m, hm, rfl, rfl, rfl⟩ := h limit tried hlimit
  refine ⟨m, ?_, rfl, rfl, rfl⟩
  rw [answer_many, hm, Option.elim_some]
  rw [← m.rest_skip] at hdone
  dsimp only
  split
  · obtain ⟨n, hn, -, -, hstop⟩ :=
      done hg hdone (m.skip (g.gap true m.rest)).stop g.top
        (g.run true limit a s place tried).2 (hg.startsBelow_top _)
    rw [hn, Option.elim_some, if_neg (by rw [hstop]; exact Nat.lt_irrefl _)]
  · rfl

theorem length_add (hg : g.Ordered) (h : g.Found a s place ns t stop) :
    t.length + stop = s.length + place := by
  obtain ⟨m, -, -, rfl, rfl⟩ := h g.top .none (hg.startsBelow_top a)
  exact m.length_add

/-- What is found at a place can be derived. -/
theorem derives (hg : g.Ordered) (h : g.Found a s place ns t stop) :
    Derives g g.reader a s (some (Node.bareAll ns, t)) := by
  have htop := hg.startsBelow_top a
  obtain ⟨m, hm, rfl, rfl, -⟩ := h g.top .none htop
  have hderives := hg.derives_answer htop s place .none
  rwa [hm] at hderives

/-- The node of a whole text. -/
theorem parse {node : Node σ} (hg : g.Ordered)
    (h : g.Found (.call symbol) s 0 [node] t stop) : g.parse symbol s = .ok node := by
  obtain ⟨⟨rest, stop', nodes, hle, hlength⟩, hm, hnodes, -, -⟩ :=
    h g.top .none (hg.startsBelow_top _)
  obtain rfl : nodes = [node] := hnodes
  rw [Language.parse]
  split
  · next heq =>
    cases hm.symm.trans (congrArg Prod.fst heq)
    rfl
  · next hne heq =>
    exact (hne _ _ node hle hlength ((congrArg Prod.fst heq).symm.trans hm)).elim

end Language.Found

/-! ### Moving places -/

mutual

/-- The node as many characters further on. -/
def Node.shift (k : Nat) : Node σ → Node σ
  | .mk symbol span text parts => .mk symbol (span.1 + k, span.2 + k) text (Node.shiftAll k parts)

/-- The nodes as many characters further on. -/
def Node.shiftAll (k : Nat) : List (Node σ) → List (Node σ)
  | [] => []
  | node :: rest => node.shift k :: Node.shiftAll k rest

end

@[simp]
theorem Node.shiftAll_append (k : Nat) (ns ms : List (Node σ)) :
    shiftAll k (ns ++ ms) = shiftAll k ns ++ shiftAll k ms := by
  induction ns with
  | nil => rfl
  | cons n ns ih => exact congrArg (n.shift k :: ·) ih

mutual

@[simp]
theorem Node.shift_zero (node : Node σ) : node.shift 0 = node := by
  obtain ⟨symbol, span, text, parts⟩ := node
  rw [Node.shift, Node.shiftAll_zero parts, Nat.add_zero, Nat.add_zero]

@[simp]
theorem Node.shiftAll_zero (nodes : List (Node σ)) : Node.shiftAll 0 nodes = nodes := by
  cases nodes with
  | nil => rfl
  | cons node rest => rw [Node.shiftAll, Node.shift_zero node, Node.shiftAll_zero rest]

end

/-- The second match is the first one with every place `k` characters further on, where `tail`
stands behind the text. -/
structure Match.Moved (k : Nat) (tail : List Char) {s s' : List Char} {place place' : Nat}
    (m : Match σ s place) (m' : Match σ s' place') : Prop where
  nodes : m'.nodes = Node.shiftAll k m.nodes
  rest : m'.rest = m.rest ++ tail
  stop : m'.stop = m.stop + k

/-- The answers of matching on a text and on the text with `tail` behind it. The second match is the
first one moved, but for a pattern that is not found in the text and goes on into what stands behind
it. -/
inductive Carried (k : Nat) (tail : List Char) {s s' : List Char} {place place' : Nat} :
    Option (Match σ s place) → Option (Match σ s' place') → Prop
  | found {m m'} (h : m.Moved k tail m') : Carried k tail (some m) (some m')
  | refused : Carried k tail none none
  | beyond {m'} (h : m'.rest.length < tail.length) : Carried k tail none (some m')

section Carried

variable {k n place place' : Nat} {tail s s' : List Char} {nodes : List (Node σ)}
  {m : Match σ s place} {m' : Match σ s' place'}

/-- What a match leaves is no longer than what it starts at. -/
theorem Match.length_rest_le (m : Match σ s place) : m.rest.length ≤ s.length := by
  have := m.length_add
  have := m.le
  omega

namespace Match

theorem moved_nothing : (nothing s place : Match σ s place).Moved k tail
    (nothing (s ++ tail) (place + k)) :=
  ⟨rfl, rfl, rfl⟩

theorem moved_take (hn : n ≤ s.length) : (take s place n nodes).Moved k tail
    (take (s ++ tail) (place + k) n (Node.shiftAll k nodes)) where
  nodes := rfl
  rest := by
    show (advance n (s ++ tail)).2 = (advance n s).2 ++ tail
    rw [advance_snd, advance_snd, List.drop_append_of_le_length hn]
  stop := by
    show place + k + (advance n (s ++ tail)).1 = place + (advance n s).1 + k
    rw [advance_fst, advance_fst, List.length_append, Nat.min_eq_left hn,
      Nat.min_eq_left (by omega)]
    omega

theorem Moved.wrap (h : m.Moved k tail m') (hplace : place' = place + k) (symbol : σ) :
    (m.wrap symbol).Moved k tail (m'.wrap symbol) where
  nodes := by
    show [Node.mk symbol (place', m'.stop) [] m'.nodes] = _
    rw [h.stop, h.nodes]
    subst hplace
    rfl
  rest := h.rest
  stop := h.stop

theorem Moved.append {gap gap' : Nat} (h : m.Moved k tail m')
    {n : Match σ (m.skip gap).rest (m.skip gap).stop}
    {n' : Match σ (m'.skip gap').rest (m'.skip gap').stop} (hn : n.Moved k tail n') :
    ((m.skip gap).append n).Moved k tail ((m'.skip gap').append n') where
  nodes := by
    show m'.nodes ++ n'.nodes = Node.shiftAll k (m.nodes ++ n.nodes)
    rw [h.nodes, hn.nodes, Node.shiftAll_append]
  rest := hn.rest
  stop := hn.stop

end Match

variable {r : Option (Match σ s place)} {r' : Option (Match σ s' place')}

theorem Carried.of_some (h : Carried k tail (some m) r') :
    ∃ m', r' = some m' ∧ m.Moved k tail m' := by
  cases h with
  | found h => exact ⟨_, rfl, h⟩

theorem Carried.of_none (h : Carried k tail (none : Option (Match σ s place)) r') :
    r' = none ∨ ∃ m', r' = some m' ∧ m'.rest.length < tail.length := by
  cases h with
  | refused => exact .inl rfl
  | beyond h => exact .inr ⟨_, rfl, h⟩

theorem Carried.wrap (h : Carried k tail r r') (hplace : place' = place + k) (symbol : σ) :
    Carried k tail (r.map (·.wrap symbol)) (r'.map (·.wrap symbol)) := by
  cases h with
  | found h => exact .found (h.wrap hplace symbol)
  | refused => exact .refused
  | beyond h => exact .beyond h

theorem Carried.append {gap gap' : Nat} (hm : m.Moved k tail m')
    {more : Option (Match σ (m.skip gap).rest (m.skip gap).stop)}
    {more' : Option (Match σ (m'.skip gap').rest (m'.skip gap').stop)}
    (h : Carried k tail more more') :
    Carried k tail (more.map (m.skip gap).append) (more'.map (m'.skip gap').append) := by
  cases h with
  | found h => exact .found (hm.append h)
  | refused => exact .refused
  | beyond h => exact .beyond h

/-- A repetition goes on behind its first part, if it moves on there. -/
theorem Match.Moved.many {gap gap' : Nat} (hm : m.Moved k tail m')
    (hnext : (m'.skip gap').stop = (m.skip gap).stop + k)
    {more : Option (Match σ (m.skip gap).rest (m.skip gap).stop)}
    {more' : Option (Match σ (m'.skip gap').rest (m'.skip gap').stop)}
    (h : Carried k tail more more') (hnone : more = none → more' = none) :
    Carried k tail
      (some (more.elim m fun n ↦ if (m.skip gap).stop < n.stop then (m.skip gap).append n else m))
      (some (more'.elim m' fun n ↦
        if (m'.skip gap').stop < n.stop then (m'.skip gap').append n else m')) := by
  cases h with
  | refused => exact .found hm
  | beyond => cases hnone rfl
  | @found n n' h =>
    have hlt : (m'.skip gap').stop < n'.stop ↔ (m.skip gap).stop < n.stop := by
      have := h.stop
      omega
    simp only [Option.elim_some, hlt]
    split
    · exact .found (hm.append h)
    · exact .found hm

/-- What goes on behind a match that already went too far does so, too. -/
theorem Carried.bind_beyond (h : m'.rest.length < tail.length) {gap : Nat}
    (next : Option (Match σ (m'.skip gap).rest (m'.skip gap).stop)) :
    Carried k tail (none : Option (Match σ s place)) (next.map (m'.skip gap).append) := by
  cases next with
  | none => exact .refused
  | some n =>
    have hrest := n.length_rest_le
    have hskip : (m'.skip gap).rest.length ≤ m'.rest.length := by
      show (advance gap m'.rest).2.length ≤ _
      rw [advance_snd, List.length_drop]
      exact Nat.sub_le _ _
    exact .beyond (Nat.lt_of_le_of_lt (Nat.le_trans hrest hskip) h)

end Carried

end Snippet.Grammar
