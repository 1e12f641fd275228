/-!
# Capped arithmetic

Counters and exported totals never wrap around: a result outside the range of its word is
replaced by the nearest end of that range.  Each operation is given by exact arithmetic
followed by one cut, and its law says so.
-/

namespace SiteProfiler

/-- Largest value of a counter. -/
def counterMax : Nat := 0xffffffffffffffff

/-- Largest value of an exported number. -/
def signedMax : Int := 0x7fffffffffffffff

/-- Smallest value of an exported number. -/
def signedMin : Int := -0x8000000000000000

/-- The sum of two counters, cut at the largest counter value. -/
def cappedSum (a b : UInt64) : UInt64 :=
  UInt64.ofNat (min (a.toNat + b.toNat) counterMax)

theorem toNat_cappedSum (a b : UInt64) :
    (cappedSum a b).toNat = min (a.toNat + b.toNat) counterMax := by
  simp only [cappedSum, counterMax, UInt64.toNat_ofNat']
  omega

/-- An exact number cut to the range of an exported number. -/
def cutInt (value : Int) : Int := max signedMin (min value signedMax)

/-- The exported number nearest to an exact one. -/
def signedOfInt (value : Int) : Int64 := Int64.ofInt (cutInt value)

theorem toInt_signedOfInt (value : Int) : (signedOfInt value).toInt = cutInt value := by
  have hLow : signedMin ≤ cutInt value := by simp only [cutInt]; omega
  have hHigh : cutInt value ≤ signedMax := by
    simp only [cutInt, signedMin, signedMax]; omega
  simp only [signedMin, signedMax] at hLow hHigh
  exact Int64.toInt_ofInt_of_le (by omega) (by omega)

/-- A counter as an exported number. -/
def signedOfCounter (count : UInt64) : Int64 := signedOfInt count.toNat

/-- The sum of two exported numbers, cut to their range. -/
def signedSum (a b : Int64) : Int64 := signedOfInt (a.toInt + b.toInt)

/-- The difference of two exported numbers, cut to their range. -/
def signedDifference (a b : Int64) : Int64 := signedOfInt (a.toInt - b.toInt)

/-- Adds up exported numbers from the left, cutting after every addition. -/
def signedTotal (values : List Int64) : Int64 := values.foldl signedSum 0

end SiteProfiler
