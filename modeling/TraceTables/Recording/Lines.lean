/-!
# Lines

Octets are cut into lines at line feeds. A carriage return right before the line feed
belongs to the line end, not to the line. The octets behind the last line feed are a line
that has not ended.
-/

namespace TraceTables.Lines

/-- The octet of a line feed. -/
def lineFeed : UInt8 := 10

/-- The octet of a carriage return. -/
def carriageReturn : UInt8 := 13

/-- A line without the carriage return at its end. -/
def dropReturn (line : ByteArray) : ByteArray :=
  if line.data.back? = some carriageReturn then line.extract 0 (line.size - 1) else line

/-- Lines that have ended, and the line that has not. -/
structure Cut where
  ended : Array ByteArray
  current : ByteArray

/-- One more octet. -/
def Cut.push (cut : Cut) (octet : UInt8) : Cut :=
  if octet = lineFeed then ⟨cut.ended.push (dropReturn cut.current), .empty⟩
  else { cut with current := cut.current.push octet }

/-- Cuts octets into lines. -/
def cut (bytes : ByteArray) : Cut :=
  bytes.data.foldl .push ⟨#[], .empty⟩

end TraceTables.Lines
