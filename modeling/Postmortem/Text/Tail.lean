/-!
# The end of a text

The last characters of a text, counted in characters.
-/

namespace Postmortem.Text

/-- The last `n` characters, or all if there are fewer. -/
def lastChars (n : Nat) (cs : List Char) : List Char := cs.drop (cs.length - n)

/-- The last `n` characters of a text, or all if there are fewer. -/
def tail (s : String) (n : Nat) : String := .ofList (lastChars n s.toList)

end Postmortem.Text
