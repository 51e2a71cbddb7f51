/-!
# Identities and colours

An identity is a chat user: the one who invoked a command, or the bot that answers. A colour is
one word of red, green and blue; bits above them are kept and never shown.
-/

namespace Snippet

/-- A chat user. -/
structure Identity where
  id : UInt64
  name : String
  avatar : Option String
  deriving DecidableEq, Repr, Inhabited

/-- The name of a user and the number that identifies it. -/
def Identity.text (i : Identity) : String :=
  s!"{i.name} (ID {i.id.toNat})"

/-- The accent colour of reports. -/
structure Color where
  word : UInt32
  deriving DecidableEq, Repr, Inhabited

namespace Color

/-- The colour that is used unless another one is chosen. -/
def standard : Color :=
  ⟨0x7289da⟩

/-- The colour of three parts. -/
def rgb (r g b : UInt8) : Color :=
  ⟨r.toUInt32 <<< 16 ||| g.toUInt32 <<< 8 ||| b.toUInt32⟩

/-- The red part. -/
def red (c : Color) : Nat :=
  c.word.toNat / 0x10000 % 0x100

/-- The green part. -/
def green (c : Color) : Nat :=
  c.word.toNat / 0x100 % 0x100

/-- The blue part. -/
def blue (c : Color) : Nat :=
  c.word.toNat % 0x100

/-- Two hexadecimal digits. -/
def hexPair (n : Nat) : List Char :=
  [Nat.digitChar (n / 16), Nat.digitChar (n % 16)].map Char.toUpper

/-- A colour is written as six hexadecimal digits. -/
def text (c : Color) : String :=
  String.ofList ('#' :: (hexPair c.red ++ hexPair c.green ++ hexPair c.blue))

end Color

end Snippet
