import Snippet.Proofs.BalancedScripts

/-!
# Brackets that stand open

`openBrackets` counts the brackets of the code of a source text that stand open at a place. What is
parsed keeps to the limit if and only if the bracket guard lets its code pass as well
(`openBrackets_of_parse`). The guard itself goes over the comments, too: behind a comment with a
quote in it, blocks may stand in one another beyond its limit (`exists_parse_hidden`).
-/

namespace Snippet.Script

open Grammar

/-! ### Blocks in one another -/

/-- No statement starts with a token that ends an expression. -/
theorem misses_statement {tokens : List (List Char)} (h : Follow 0 tokens) :
    Misses Symbol.anyStatement tokens := by
  have hexpr := misses_expr h
  obtain ⟨s, hs, heq⟩ := h
  have hmarks : ∀ s ∈ stopsAt 0, wordAt s.toList = [] ∧ Lexeme.exactly ";" s.toList = none ∧
      "\x7b".toList.isPrefixOf s.toList = false ∧ Lexeme.name s.toList = none := by decide
  obtain ⟨hword, hsemi, hblock, hname⟩ := hmarks s hs
  rw [← heq] at hword hsemi hblock hname
  have hopening := opening_of_mark hword hsemi hblock
  have huntargeted : Untargeted tokens := .inl hname
  exact derives_statement (misses_text (by decide) hblock)
    (fun hrule hwords ↦ misses_token hrule (hopening.word hwords)) huntargeted.misses
    (misses_token rfl hsemi) (.noPhrase rfl (.noFirst hexpr))

/-- The tokens of blocks in one another, the innermost one with nothing in it. -/
def nestedTokens : Nat → List (List Char)
  | 0 => ["\x7b".toList, "\x7d".toList]
  | k + 1 => "\x7b".toList :: (nestedTokens k ++ ["\x7d".toList])

theorem length_nestedTokens_pos (k : Nat) : 0 < (nestedTokens k).length := by
  cases k <;> exact Nat.succ_pos _

/-- The node of blocks in one another. -/
def nestedNode : Nat → Node Symbol
  | 0 => phraseNode .block []
  | k + 1 => phraseNode .block [nestedNode k]

/-- Blocks in one another behind a comment, with a space behind each bracket. -/
def nested (comment : String) (k : Nat) : String :=
  comment ++ String.ofList ((nestedTokens k).flatMap (· ++ [' ']))

theorem toList_nested (comment : String) (k : Nat) :
    (nested comment k).toList = comment.toList ++ (nestedTokens k).flatMap (· ++ [' ']) := by
  rw [nested, String.toList_append]
  exact congrArg _ String.toList_ofList

theorem finds_nested (k : Nat) (rest : List (List Char)) :
    Finds (.call .block) (nestedTokens k ++ rest) [nestedNode k] rest := by
  have hclose {rest : List (List Char)} :
      Repeats Symbol.anyStatement ("\x7d".toList :: rest) [] ("\x7d".toList :: rest) :=
    .nil (misses_statement (.of_closer (by decide)))
  induction k generalizing rest with
  | zero => exact .phrase rfl (.seq (finds_lit _ (by decide))
      (.seq hclose.1 (finds_lit _ (by decide))))
  | succ k ih =>
    have hinner := ih ("\x7d".toList :: rest)
    have hbody : Repeats Symbol.anyStatement (nestedTokens k ++ "\x7d".toList :: rest)
        [nestedNode k] ("\x7d".toList :: rest) := by
      refine Repeats.cons (.left hinner) ?_ hclose
      rw [List.length_append]
      exact Nat.lt_add_of_pos_left (length_nestedTokens_pos k)
    have hparts := Derives.seq (finds_lit "\x7b" (by decide))
      (Derives.seq hbody.1 (finds_lit "\x7d" (by decide)))
    rw [nestedTokens, List.cons_append, List.append_assoc]
    exact .phrase rfl hparts

/-- A script that is nothing but blocks in one another. -/
theorem finds_scriptBody_nested (k : Nat) :
    Finds scriptBody (nestedTokens k) [nestedNode k, tokenNode .ending []] [] := by
  have hstatements : Repeats Symbol.anyStatement (nestedTokens k) [nestedNode k] [] := by
    have hblock := finds_nested k []
    rw [List.append_nil] at hblock
    exact Repeats.cons (.left hblock) (length_nestedTokens_pos k)
      (.nil (misses_statement follow_nil))
  have hending : Finds (.call .ending) [] [tokenNode .ending []] [] :=
    .token ⟨Lexeme.ending, rfl, .inl ⟨rfl, rfl⟩⟩
  exact .seq hstatements.1
    (.seq (.missing (.noPhrase rfl (misses_expr follow_nil))) hending)

theorem exists_stmtOf_nested {k depth : Nat} (h : depth + k ≤ maxDepth) :
    ∃ s, stmtOf depth (nestedNode k) = .ok s := by
  have hcheck := checkDepth_eq_ok (Nat.le_of_add_right_le h)
  induction k generalizing depth with
  | zero => exact ⟨_, by rw [nestedNode, phraseNode, stmtOf, hcheck]; rfl⟩
  | succ k ih =>
    have hdepth : depth + 1 + k ≤ maxDepth := by omega
    obtain ⟨s, hs⟩ := ih hdepth (checkDepth_eq_ok (Nat.le_of_add_right_le hdepth))
    exact ⟨_, by rw [nestedNode, phraseNode, stmtOf, hcheck, stmtsOf, hs]; rfl⟩

theorem programOf_block {parts : List (Node Symbol)} {s : Stmt}
    (h : stmtOf 0 (phraseNode .block parts) = .ok s) :
    programOf [phraseNode .block parts, tokenNode .ending []] = .ok ⟨[s], none⟩ := by
  rw [phraseNode] at h ⊢
  rw [programOf, h]
  · rfl
  · rintro _ _ _ ⟨⟩
  · rintro _ _ _ ⟨⟩

theorem mem_nestedTokens {k : Nat} {token : List Char} (h : token ∈ nestedTokens k) :
    token = ['\x7b'] ∨ token = ['\x7d'] := by
  induction k with
  | zero => simpa [nestedTokens] using h
  | succ k ih =>
    rcases List.mem_cons.1 h with rfl | h
    · exact .inl rfl
    · rcases List.mem_append.1 h with h | h
      · exact ih h
      · exact .inr (List.mem_singleton.1 h)

/-- Blocks in one another are parsed, up to the depth that is built, if the guard lets them and the
comment in front of them pass. -/
theorem exists_parse_nested {comment : String} {k : Nat}
    (hcomment : comment? (nested comment k).toList = some comment.toList.length)
    (hguard : checkNesting (nested comment k).toList = .ok ()) (hk : k ≤ maxDepth) :
    ∃ program, parse (nested comment k) = .ok program := by
  have hwhole : ∀ token ∈ nestedTokens k, Whole token := fun token htoken ↦ by
    rcases mem_nestedTokens htoken with rfl | rfl <;> exact whole_of_head (by decide)
  obtain ⟨t, hbody⟩ := derives_of_spaced plain_scriptBody (finds_scriptBody_nested k)
    (spaced_flatMap _) hwhole
  have hskip := skip_of_comment hcomment
  rw [toList_nested, List.drop_left, ← toList_nested] at hskip
  rw [← hskip] at hbody
  have houtline := outline_parse hguard hbody
  obtain ⟨s, hs⟩ : ∃ s, stmtOf 0 (nestedNode k) = .ok s :=
    exists_stmtOf_nested (by rwa [Nat.zero_add])
  obtain ⟨parts, hparts⟩ : ∃ parts, nestedNode k = phraseNode .block parts := by
    cases k <;> exact ⟨_, rfl⟩
  rw [hparts] at hs houtline
  rw [programOf_block hs] at houtline
  cases hparse : parse (nested comment k) with
  | ok program => exact ⟨program, rfl⟩
  | error c =>
    rw [hparse] at houtline
    cases houtline

/-- A string that is never closed hides everything from the guard. -/
theorem excessBracket?_inside {s : List Char} (h : ∀ c ∈ s, c ≠ '\\' ∧ c ≠ '"')
    (limit place depth : Nat) : excessBracket? limit place depth .inside s = none := by
  induction s generalizing place with
  | nil => rfl
  | cons c s ih =>
    obtain ⟨⟨hslash, hquote⟩, hs⟩ := List.forall_mem_cons.1 h
    rw [excessBracket?, if_neg hslash, if_neg hquote]
    exact ih hs (place + 1)

/-- Behind a comment with a quote in it, blocks are parsed however deep they are, up to the depth
that is built. -/
theorem exists_parse_hidden {k : Nat} (hk : k ≤ maxDepth) :
    ∃ program, parse (nested "/*\"*/" k) = .ok program := by
  have hinside : ∀ c ∈ '*' :: '/' :: (nestedTokens k).flatMap (· ++ [' ']),
      c ≠ '\\' ∧ c ≠ '"' := by
    intro c hc
    simp only [List.mem_cons, List.mem_flatMap, List.mem_append, List.not_mem_nil, or_false] at hc
    rcases hc with rfl | rfl | ⟨token, htoken, hc | rfl⟩
    · decide
    · decide
    · rcases mem_nestedTokens htoken with rfl | rfl <;> cases List.mem_singleton.1 hc <;> decide
    · decide
  -- the guard is inside of quotes from the middle of the comment on
  have hguard : checkNesting (nested "/*\"*/" k).toList = .ok () := by
    rw [toList_nested, checkNesting_eq_ok_iff]
    exact excessBracket?_inside hinside maxNesting 3 0
  exact exists_parse_nested (by rw [toList_nested]; rfl) hguard hk

/-! ### The limit -/

/-- How many brackets of the code stand open at a place of the source text. -/
def openBrackets (source : String) (place : Nat) : Int :=
  surplus ((code source.toList).take place)

theorem zero_le_surplus {s : List Char} {e : Nat} (h : depthBehind 0 s = some e) (n : Nat) :
    0 ≤ surplus (s.take n) := by
  rw [← List.take_append_drop n s] at h
  obtain ⟨m, hm, -⟩ := depthBehind_append.1 h
  have hcount := add_surplus hm
  omega

/-- In a text that is parsed, no bracket of the code is closed before it is opened, and the code
keeps to the limit if and only if the guard lets the code pass too, with spaces for strings and
comments. Without quotes and closing brackets in comments it always does. -/
theorem openBrackets_of_parse {source : String} {program : Program}
    (h : parse source = .ok program) :
    (∀ n, 0 ≤ openBrackets source n) ∧
      ((∀ n, openBrackets source n ≤ maxNesting) ↔ checkNesting (code source.toList) = .ok ()) ∧
      ((∀ c, (Region.comment, c) ∈ regions source.toList → c ∉ '"' :: closers) →
        ∀ n, openBrackets source n ≤ maxNesting) := by
  have hdepth := depthBehind_code h
  have hlimit : (∀ n, openBrackets source n ≤ maxNesting) ↔
      checkNesting (code source.toList) = .ok () := by
    have hguard := excessBracket?_eq_none_iff (fun _ hc ↦ ne_quote_of_mem_code hc) hdepth
      (Nat.zero_le maxNesting) 0
    rw [checkNesting_eq_ok_iff, hguard]
    exact forall_congr' fun n ↦ by simp [openBrackets]
  refine ⟨zero_le_surplus hdepth, hlimit, fun hclean ↦ hlimit.2 ?_⟩
  have hguard := checkNesting_eq_ok_iff.1 (checkNesting_of_parse h)
  exact checkNesting_eq_ok_iff.2 (excessBracket?_code hclean (Nat.le_refl 0) hguard)

/-- Blocks behind a comment with a bracket in it. -/
theorem openBrackets_of_parse_nested :
    let source := nested "/*(*/" 1
    (∀ n, 0 ≤ openBrackets source n) ∧ checkNesting (code source.toList) = .ok () ∧
      ∀ n, openBrackets source n ≤ maxNesting := by
  intro source
  obtain ⟨program, hparse⟩ : ∃ program, parse source = .ok program :=
    exists_parse_nested (by decide +kernel) (checkNesting_eq_ok_iff.2 (by decide +kernel))
      (by decide)
  obtain ⟨hnonneg, hlimit, hclean⟩ := openBrackets_of_parse hparse
  have hcomments : ∀ p ∈ regions source.toList, p.1 = .comment → p.2 ∉ '"' :: closers := by
    decide +kernel
  have hle := hclean fun c hc ↦ hcomments _ hc rfl
  exact ⟨hnonneg, hlimit.1 hle, hle⟩

/-- Sixty-five blocks in one another, which are parsed. -/
theorem openBrackets_hidden :
    (∃ program, parse (nested "/*\"*/" maxNesting) = .ok program) ∧
      openBrackets (nested "/*\"*/" maxNesting) 134 = maxNesting + 1 := by
  refine ⟨exists_parse_hidden (by decide), ?_⟩
  rw [openBrackets, toList_nested]
  decide +kernel

end Snippet.Script
