/-!
# White space

The characters with the Unicode property `White_Space`, in ranges. A line made of them
alone is blank.
-/

namespace TraceTables.Text

/-- The code points with the property, as ranges that include both ends. -/
def whiteSpace : List (Nat × Nat) :=
  [(0x09, 0x0D), (0x20, 0x20), (0x85, 0x85), (0xA0, 0xA0), (0x1680, 0x1680),
    (0x2000, 0x200A), (0x2028, 0x2029), (0x202F, 0x202F), (0x205F, 0x205F), (0x3000, 0x3000)]

/-- Whether a character is white space. -/
def isWhite (c : Char) : Bool :=
  whiteSpace.any fun range => range.1 ≤ c.toNat && c.toNat ≤ range.2

/-- Whether a text holds nothing but white space. -/
def isBlank (text : List Char) : Bool :=
  text.all isWhite

theorem isBlank_append (a b : List Char) : isBlank (a ++ b) = (isBlank a && isBlank b) := by
  simp [isBlank]

end TraceTables.Text
