import Reckoner.Text.CharSet

/-!
# Blanks

The characters that separate words in running text: the ASCII blanks with the four information
separators, the next-line character and the spaces of the Unicode character database.
-/

set_option autoImplicit false

namespace Reckoner.Text

/-- Tabs and line ends, the information separators and the space, then the blanks outside ASCII. -/
def blanks : CharSet := ⟨[
  9, 14, 28, 33, 133, 134, 160, 161, 5760, 5761, 8192, 8203, 8232, 8234, 8239, 8240, 8287, 8288,
  12288, 12289]⟩

/-- Whether a character is blank. -/
def isBlank (c : Char) : Bool := blanks.contains c

/-- A text without its blanks. -/
def withoutBlanks (s : String) : String := String.ofList (s.toList.filter (!isBlank ·))

end Reckoner.Text
