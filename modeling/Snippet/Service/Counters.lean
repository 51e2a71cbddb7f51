import Snippet.Command

/-!
# Counters

The service counts the commands it has answered, by their results, and the replies sent on the
way. A counter is kept from the first time it is added to, and all are shown in the order of their
labels. What adding does is said by `Tally.count_add`.
-/

namespace Snippet.Service

/-- The results by which commands are counted. -/
inductive Verdict where
  | badRequest
  | empty
  | ok
  deriving DecidableEq, Repr, Inhabited

/-- The label of a result. -/
def Verdict.label : Verdict → String
  | badRequest => "bad_request"
  | empty => "empty"
  | ok => "ok"

/-- The result that a response counts as. -/
def Verdict.ofResponse : Response → Verdict
  | .ok _ => ok
  | .badRequest _ => badRequest
  | .empty => empty

/-- Counters by their labels. -/
abbrev Tally :=
  List (List String × Nat)

namespace Tally

/-- Adds to the counter of some labels, which starts at zero. -/
def add (labels : List String) (n : Nat) : Tally → Tally
  | [] => [(labels, n)]
  | (key, count) :: rest =>
    if labels = key then (key, count + n) :: rest else (key, count) :: add labels n rest

/-- The counter of some labels. -/
def count (labels : List String) : Tally → Nat
  | [] => 0
  | (key, n) :: rest => if labels = key then n else count labels rest

/-- Adding changes one counter. -/
@[simp]
theorem count_add (t : Tally) (a b : List String) (n : Nat) :
    (t.add a n).count b = t.count b + if b = a then n else 0 := by
  induction t with
  | nil => simp [add, count]
  | cons x rest ih =>
    obtain ⟨key, m⟩ := x
    by_cases ha : a = key <;> by_cases hb : b = key <;> simp_all [add, count]
    · intro h
      exact absurd (h ▸ rfl) ha

/-- The counters in the order of their labels. -/
def inOrder (t : Tally) : Tally :=
  t.mergeSort fun x y ↦ !decide (y.1 < x.1)

end Tally

/-- The counters of the service. -/
structure Counters where
  /-- The commands, by name and result. -/
  commands : Tally
  /-- The replies, by the name of the command. -/
  replies : Tally
  deriving Repr, Inhabited

namespace Counters

/-- Nothing has been counted. -/
def none : Counters :=
  ⟨[], []⟩

/-- Counts a command with its result and its replies. -/
def record (c : Counters) (command : Command) (verdict : Verdict) (replies : Nat) : Counters :=
  ⟨c.commands.add [command.name, verdict.label] 1, c.replies.add [command.name] replies⟩

/-- The text of a family of counters; of none, there is no text. -/
def familyText (name help : String) (labelNames : List String) (t : Tally) : String :=
  if t.isEmpty then ""
  else
    let line : List String × Nat → String := fun (labels, count) ↦
      let pair (label value : String) : String := label ++ "=\"" ++ value ++ "\""
      let pairs := List.zipWith pair labelNames labels
      name ++ "\x7b" ++ ",".intercalate pairs ++ "\x7d " ++ toString count ++ "\n"
    "# HELP " ++ name ++ " " ++ help ++ "\n# TYPE " ++ name ++ " counter\n" ++
      String.join (t.inOrder.map line)

/-- The text of all counters. -/
def text (c : Counters) : String :=
  familyText "abyss_commands_total" "Commands handled, by result" ["command", "result"]
      c.commands ++
    familyText "abyss_replies_total" "Replies emitted while a command ran" ["command"] c.replies

end Counters

end Snippet.Service
