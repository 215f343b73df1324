/-!
# White space and blank names

The characters with the Unicode property `White_Space`, and the two questions the library asks
with them: is a text blank, and what is left of a text without the white space around it.

* `isSpace`        the 25 characters of the property;
* `isBlank`        a text of white space only, the empty one included;
* `skipSpace`      a text without its leading white space.
-/

namespace Workflow.Text

def isSpace (c : Char) : Bool :=
  (0x09 ≤ c.toNat && c.toNat ≤ 0x0D) || c.toNat == 0x20 || c.toNat == 0x85 || c.toNat == 0xA0 ||
    c.toNat == 0x1680 || (0x2000 ≤ c.toNat && c.toNat ≤ 0x200A) || c.toNat == 0x2028 ||
    c.toNat == 0x2029 || c.toNat == 0x202F || c.toNat == 0x205F || c.toNat == 0x3000

def isBlank (s : String) : Bool := s.toList.all isSpace

/-- the text from its first character that is no white space -/
def skipSpace (cs : List Char) : List Char := cs.dropWhile isSpace

theorem skipSpace_cons_of_not_isSpace {c : Char} (h : isSpace c = false) (cs : List Char) :
    skipSpace (c :: cs) = c :: cs := by
  simp [skipSpace, h]

end Workflow.Text
