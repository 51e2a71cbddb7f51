import Snippet.Proofs.SourceRegions

/-!
# The depth of brackets

Brackets are counted in two ways. `surplus` counts the opening ones and the closing ones of a text
against each other; `depthBehind` goes along the text and fails where a bracket is closed that is
not open. Where it does not fail, both say the same (`add_surplus`).

The bracket guard counts like them outside of strings, so that it lets a text without strings pass
if and only if the text keeps to the limit (`excessBracket?_eq_none_iff`). Where comments neither
close a bracket nor start a string, it counts on the text at least as many as on its code
(`excessBracket?_code`).
-/

namespace Snippet.Script

open Grammar

/-! ### Counting brackets -/

/-- The characters that open a bracket. -/
def openers : List Char :=
  ['(', '[', '\x7b']

/-- The characters that close a bracket. -/
def closers : List Char :=
  [')', ']', '\x7d']

/-- How many more brackets are opened than closed. -/
def surplus (s : List Char) : Int :=
  (s.countP (· ∈ openers) : Int) - (s.countP (· ∈ closers) : Int)

/-- How many brackets are open behind a character, unless it closes one that is not open. -/
def bracketStep (depth : Nat) (c : Char) : Option Nat :=
  if c ∈ openers then some (depth + 1)
  else if c ∈ closers then if depth = 0 then none else some (depth - 1)
  else some depth

/-- How many brackets are open behind a text, unless one is closed in it that is not open. -/
def depthBehind (depth : Nat) (s : List Char) : Option Nat :=
  s.foldlM bracketStep depth

theorem bracketStep_cases {d e : Nat} {c : Char} (h : bracketStep d c = some e) :
    c ∈ openers ∧ c ∉ closers ∧ e = d + 1 ∨ c ∉ openers ∧ c ∈ closers ∧ d = e + 1 ∨
      c ∉ openers ∧ c ∉ closers ∧ e = d := by
  have hdisjoint : ∀ c ∈ openers, c ∉ closers := by simp [openers, closers]
  unfold bracketStep at h
  split at h
  · next hopen =>
    cases h
    exact .inl ⟨hopen, hdisjoint c hopen, rfl⟩
  · next hopen =>
    split at h
    · next hclose =>
      split at h
      · cases h
      · cases h
        exact .inr (.inl ⟨hopen, hclose, by omega⟩)
    · next hclose =>
      cases h
      exact .inr (.inr ⟨hopen, hclose, rfl⟩)

theorem depthBehind_cons {d e : Nat} {c : Char} {s : List Char} :
    depthBehind d (c :: s) = some e ↔ ∃ m, bracketStep d c = some m ∧ depthBehind m s = some e := by
  rw [depthBehind, List.foldlM_cons]
  exact Option.bind_eq_some_iff

theorem depthBehind_append {d e : Nat} {s t : List Char} :
    depthBehind d (s ++ t) = some e ↔ ∃ m, depthBehind d s = some m ∧ depthBehind m t = some e := by
  rw [depthBehind, List.foldlM_append]
  exact Option.bind_eq_some_iff

theorem surplus_cons (c : Char) (s : List Char) :
    surplus (c :: s) =
      surplus s + (if c ∈ openers then 1 else 0) - (if c ∈ closers then 1 else 0) := by
  simp only [surplus, List.countP_cons, decide_eq_true_eq]
  split <;> split <;> push_cast <;> omega

/-- Behind a character there are as many brackets open as counted. -/
theorem surplus_cons_of_step {d e : Nat} {c : Char} (h : bracketStep d c = some e)
    (s : List Char) : (d : Int) + surplus (c :: s) = e + surplus s := by
  rw [surplus_cons]
  rcases bracketStep_cases h with ⟨hopen, hclose, rfl⟩ | ⟨hopen, hclose, rfl⟩ |
    ⟨hopen, hclose, rfl⟩ <;> simp only [hopen, hclose, if_true, if_false] <;> omega

/-- Where no bracket is closed that is not open, those that stand open are counted. -/
theorem add_surplus {d e : Nat} {s : List Char} (h : depthBehind d s = some e) :
    (d : Int) + surplus s = e := by
  induction s generalizing d with
  | nil =>
    cases h
    exact Int.add_zero _
  | cons c s ih =>
    obtain ⟨m, hstep, hrest⟩ := depthBehind_cons.1 h
    rw [surplus_cons_of_step hstep, ih hrest]

/-- With more brackets open in front, as many more are open behind. -/
theorem depthBehind_add {d e : Nat} {s : List Char} (h : depthBehind d s = some e) (k : Nat) :
    depthBehind (d + k) s = some (e + k) := by
  induction s generalizing d with
  | nil =>
    cases h
    rfl
  | cons c s ih =>
    obtain ⟨m, hstep, hrest⟩ := depthBehind_cons.1 h
    refine depthBehind_cons.2 ⟨m + k, ?_, ih hrest⟩
    rcases bracketStep_cases hstep with ⟨hopen, -, rfl⟩ | ⟨hopen, hclose, rfl⟩ |
      ⟨hopen, hclose, rfl⟩
    · rw [bracketStep, if_pos hopen, Nat.add_right_comm]
    · rw [bracketStep, if_neg hopen, if_pos hclose, if_neg (by omega), Nat.add_right_comm,
        Nat.add_sub_cancel]
    · rw [bracketStep, if_neg hopen, if_neg hclose]

/-- A text without brackets. -/
def Bracketless (s : List Char) : Prop :=
  ∀ c ∈ s, c ∉ openers ∧ c ∉ closers

theorem Bracketless.depthBehind {s : List Char} (h : Bracketless s) (d : Nat) :
    depthBehind d s = some d := by
  induction s with
  | nil => rfl
  | cons c s ih =>
    obtain ⟨⟨hopen, hclose⟩, hs⟩ := List.forall_mem_cons.1 h
    exact depthBehind_cons.2 ⟨d, by rw [bracketStep, if_neg hopen, if_neg hclose], ih hs⟩

instance (s : List Char) : Decidable (Bracketless s) :=
  List.decidableBAll (fun c ↦ c ∉ openers ∧ c ∉ closers) s

/-- Characters of a kind that no bracket is of. -/
theorem bracketless_of_forall {p : Char → Bool} (hp : (openers ++ closers).all (!p ·) = true)
    {s : List Char} (h : ∀ c ∈ s, p c = true) : Bracketless s := by
  intro c hc
  have hnot : ¬c ∈ openers ++ closers := fun hmem ↦ by
    simpa [h c hc] using List.all_eq_true.1 hp c hmem
  exact not_or.1 (mt List.mem_append.2 hnot)

theorem bracketless_spaces (n : Nat) : Bracketless (List.replicate n ' ') :=
  bracketless_of_forall (p := (· == ' ')) (by decide) (by simp)

/-! ### The bracket guard outside of strings -/

theorem excessBracket?_cons {c : Char} (hquote : c ≠ '"') (limit place depth : Nat)
    (s : List Char) :
    excessBracket? limit place depth .outside (c :: s) =
      if c ∈ openers then
        if limit ≤ depth then some place
        else excessBracket? limit (place + 1) (depth + 1) .outside s
      else
        excessBracket? limit (place + 1) (if c ∈ closers then depth - 1 else depth) .outside s := by
  rw [excessBracket?, if_neg hquote]
  simp only [openers, closers, List.mem_cons, List.not_mem_nil, or_false]
  split
  · rfl
  · split <;> rfl

/-- Where there are no strings, the guard lets pass what keeps to the limit. -/
theorem excessBracket?_eq_none_iff {limit d e : Nat} {s : List Char} (hs : ∀ c ∈ s, c ≠ '"')
    (h : depthBehind d s = some e) (hd : d ≤ limit) (place : Nat) :
    excessBracket? limit place d .outside s = none ↔
      ∀ n, (d : Int) + surplus (s.take n) ≤ limit := by
  induction s generalizing d place with
  | nil =>
    refine iff_of_true rfl fun n ↦ ?_
    rw [List.take_nil]
    exact Int.ofNat_le.2 hd
  | cons c s ih =>
    obtain ⟨hquote, hs⟩ := List.forall_mem_cons.1 hs
    obtain ⟨m, hstep, hrest⟩ := depthBehind_cons.1 h
    have htake : (∀ n, (d : Int) + surplus ((c :: s).take n) ≤ limit) ↔
        ∀ n, (m : Int) + surplus (s.take n) ≤ limit := by
      refine ⟨fun h n ↦ surplus_cons_of_step hstep _ ▸ h (n + 1), fun h n ↦ ?_⟩
      cases n with
      | zero => exact Int.ofNat_le.2 hd
      | succ n =>
        rw [List.take_succ_cons, surplus_cons_of_step hstep]
        exact h n
    rw [excessBracket?_cons hquote, htake]
    rcases bracketStep_cases hstep with ⟨hopen, hclose, rfl⟩ | ⟨hopen, hclose, rfl⟩ |
      ⟨hopen, hclose, rfl⟩
    · rw [if_pos hopen]
      split
      · next hlimit =>
        refine iff_of_false (by simp) fun h ↦ ?_
        have hzero : ((d + 1 : Nat) : Int) ≤ limit := h 0
        omega
      · next hlimit => exact ih hs hrest (by omega) (place + 1)
    · rw [if_neg hopen, if_pos hclose]
      exact ih hs hrest (by omega) (place + 1)
    · rw [if_neg hopen, if_neg hclose]
      exact ih hs hrest hd (place + 1)

theorem excessBracket?_spaces (limit place depth n : Nat) (s : List Char) :
    excessBracket? limit place depth .outside (List.replicate n ' ' ++ s) =
      excessBracket? limit (place + n) depth .outside s := by
  induction n generalizing place with
  | zero => rfl
  | succ n ih =>
    rw [List.replicate_succ, List.cons_append, excessBracket?_cons (by decide),
      if_neg (by decide), if_neg (by decide), ih, Nat.add_assoc, Nat.add_comm 1]

/-- Where nothing is closed and no string begins, the guard only counts on. -/
theorem exists_excessBracket? {limit place depth : Nat} {chars s : List Char}
    (hchars : ∀ c ∈ chars, c ∉ '"' :: closers)
    (h : excessBracket? limit place depth .outside (chars ++ s) = none) :
    ∃ place' depth', depth ≤ depth' ∧ excessBracket? limit place' depth' .outside s = none := by
  induction chars generalizing place depth with
  | nil => exact ⟨place, depth, Nat.le_refl _, h⟩
  | cons c chars ih =>
    obtain ⟨hc, hchars⟩ := List.forall_mem_cons.1 hchars
    rw [List.cons_append, excessBracket?_cons (List.ne_of_not_mem_cons hc),
      if_neg (List.not_mem_of_not_mem_cons hc)] at h
    split at h
    · split at h
      · cases h
      · obtain ⟨place', depth', hle, hrest⟩ := ih hchars h
        exact ⟨place', depth', Nat.le_of_succ_le hle, hrest⟩
    · exact ih hchars h

/-- Without quotes and closing brackets in comments, the guard lets the code pass where it lets the
text pass. -/
theorem excessBracket?_code {limit place place' depth depth' : Nat} {s : List Char}
    (hclean : ∀ c, (Region.comment, c) ∈ regions s → c ∉ '"' :: closers) (hle : depth' ≤ depth)
    (h : excessBracket? limit place depth .outside s = none) :
    excessBracket? limit place' depth' .outside (code s) = none := by
  induction s using text_induction generalizing place place' depth depth' with
  | nil => rfl
  | comment s n hcomment ih =>
    rw [regions_comment hcomment] at hclean
    have hchars : ∀ c ∈ s.take n, c ∉ '"' :: closers := fun c hc ↦
      hclean c (List.mem_append_left _ (List.mem_map_of_mem hc))
    rw [← List.take_append_drop n s] at h
    obtain ⟨place₁, depth₁, hle₁, hrest⟩ := exists_excessBracket? hchars h
    rw [code_comment hcomment, excessBracket?_spaces]
    exact ih (fun c hc ↦ hclean c (List.mem_append_right _ hc)) (Nat.le_trans hle hle₁) hrest
  | string rest n hclose ih =>
    rw [regions_string hclose] at hclean
    obtain ⟨body, tail, hbody, rfl, rfl⟩ := exists_quotedBody hclose
    have hdrop : (body ++ '"' :: tail).drop (body.length + 1) = tail := by
      rw [List.drop_length_add_append]
      rfl
    rw [code_string hclose, excessBracket?_spaces]
    rw [hdrop] at ih hclean ⊢
    rw [excessBracket?, if_pos rfl, hbody.excessBracket?] at h
    exact ih (fun c hc ↦ hclean c (List.mem_append_right _ hc)) hle h
  | unclosed rest hclose =>
    rw [code_open hclose, ← List.append_nil (List.replicate _ _), excessBracket?_spaces]
    rfl
  | char c rest hcomment hquote ih =>
    rw [regions_cons hcomment hquote] at hclean
    have hrest : ∀ c, (Region.comment, c) ∈ regions rest → c ∉ '"' :: closers := fun c hc ↦
      hclean c (List.mem_cons_of_mem _ hc)
    rw [excessBracket?_cons hquote] at h
    rw [code_cons hcomment hquote, excessBracket?_cons hquote]
    split
    · next hopen =>
      rw [if_pos hopen] at h
      split at h
      · cases h
      · next hlimit =>
        rw [if_neg (fun hlimit' ↦ hlimit (Nat.le_trans hlimit' hle))]
        exact ih hrest (Nat.succ_le_succ hle) h
    · next hopen =>
      rw [if_neg hopen] at h
      refine ih hrest ?_ h
      split
      · exact Nat.sub_le_sub_right hle 1
      · exact hle

end Snippet.Script
