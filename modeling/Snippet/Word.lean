/-!
# The bound of integers

Integers are signed words of 64 bits. The negative ones reach one further than the others.
-/

namespace Snippet

/-- The least number without a sign that is no integer. Its negative is one. -/
def intBound : Nat := 0x8000000000000000

end Snippet
