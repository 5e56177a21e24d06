/-!
Names that are compared without regard to case.
-/
namespace Headroom.Text

/-- The lower case of a character, as far as it bears on ASCII names: of all other
characters only the Kelvin sign has an ASCII letter for its lower case. -/
def lowerChar (c : Char) : Char :=
  if c.toNat = 0x212A then 'k' else c.toLower

def lower (text : String) : String := text.map lowerChar

end Headroom.Text
