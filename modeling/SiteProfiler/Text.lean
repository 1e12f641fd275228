/-!
# Text

The few ways in which numbers and texts are written: decimal and hexadecimal numbers without
leading zeros, and the bytes of a text.
-/

namespace SiteProfiler

/-- The decimal digits of a number. -/
def natText (n : Nat) : String := String.ofList (Nat.toDigits 10 n)

/-- The decimal digits of an integer, after a minus sign if it is negative. -/
def intText (value : Int) : String :=
  if value < 0 then "-" ++ natText value.natAbs else natText value.natAbs

/-- `0x` and the hexadecimal digits of a number, in lower case. -/
def hexText (n : Nat) : String := "0x" ++ String.ofList (Nat.toDigits 16 n)

/-- The bytes of a text. -/
def textBytes (text : String) : List UInt8 := text.toByteArray.data.toList

end SiteProfiler
