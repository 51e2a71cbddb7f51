/-!
# Shortening

A text that is too long loses its end and gets a mark for what is missing. A text that ends in a
code fence keeps the fence where there is room for it, so that a block of code stays closed.
-/

namespace Snippet.Text

/-- The mark for a missing end. -/
def ellipsis : Char := '…'

/-- What opens and closes a block of code. -/
def fence : List Char := ['`', '`', '`']

/-- Cuts a text to `limit` characters, the mark included. -/
def cutPlain (s : List Char) (limit : Nat) : List Char :=
  if s.length ≤ limit then s
  else if limit = 0 then []
  else s.take (limit - 1) ++ [ellipsis]

/-- Cuts a text to `limit` characters and keeps a closing fence where there is room. -/
def cut (s : List Char) (limit : Nat) : List Char :=
  if s.length ≤ limit then s
  else if fence.isSuffixOf s ∧ fence.length + 1 < limit then
    s.take (limit - fence.length - 1) ++ ellipsis :: fence
  else cutPlain s limit

/-- A text of at most `limit` characters. -/
def shortenPlain (s : String) (limit : Nat) : String :=
  String.ofList (cutPlain s.toList limit)

/-- A text of at most `limit` characters that keeps its closing fence where there is room. -/
def shorten (s : String) (limit : Nat) : String :=
  String.ofList (cut s.toList limit)

@[simp]
theorem cutPlain_of_le {s : List Char} {limit : Nat} (h : s.length ≤ limit) :
    cutPlain s limit = s := by
  simp [cutPlain, h]

/-- A text that is cut has exactly the length it may have. -/
theorem length_cutPlain_of_lt {s : List Char} {limit : Nat} (h : limit < s.length) :
    (cutPlain s limit).length = limit := by
  unfold cutPlain
  split
  · omega
  · split
    · simp [*]
    · simp
      omega

@[simp]
theorem cut_of_le {s : List Char} {limit : Nat} (h : s.length ≤ limit) : cut s limit = s := by
  simp [cut, h]

/-- A text that is cut has exactly the length it may have, with or without a fence. -/
theorem length_cut_of_lt {s : List Char} {limit : Nat} (h : limit < s.length) :
    (cut s limit).length = limit := by
  unfold cut
  split
  · omega
  · split
    · next hf =>
      simp [fence] at hf ⊢
      omega
    · exact length_cutPlain_of_lt h

end Snippet.Text
