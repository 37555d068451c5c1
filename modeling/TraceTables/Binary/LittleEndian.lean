/-!
# Little-endian numbers

A number of a fixed width is stored as that many octets, the least significant first.
`ofOctets_octets` says that a number that fits the width is read back, and
`octets_ofOctets` that any octets are the ones of the number read from them.
-/

namespace TraceTables.Binary

/-- The octets of a number, cut to the width. -/
def octets : (width : Nat) → Nat → List UInt8
  | 0, _ => []
  | width + 1, n => UInt8.ofNat n :: octets width (n / 256)

/-- The first number that does not fit a width. -/
def limit : (width : Nat) → Nat
  | 0 => 1
  | width + 1 => 256 * limit width

/-- The number that octets stand for. -/
def ofOctets : List UInt8 → Nat
  | [] => 0
  | octet :: more => octet.toNat + 256 * ofOctets more

@[simp] theorem length_octets (width n : Nat) : (octets width n).length = width := by
  induction width generalizing n with
  | zero => rfl
  | succ width ih => simp [octets, ih]

theorem ofOctets_octets {width n : Nat} (h : n < limit width) :
    ofOctets (octets width n) = n := by
  induction width generalizing n with
  | zero => simp only [limit] at h; simp only [octets, ofOctets]; omega
  | succ width ih =>
    have high : n / 256 < limit width := Nat.div_lt_of_lt_mul h
    simp only [octets, ofOctets, ih high, UInt8.toNat_ofNat']
    omega

theorem octets_ofOctets (list : List UInt8) : octets list.length (ofOctets list) = list := by
  induction list with
  | nil => rfl
  | cons octet more ih =>
    have low : UInt8.ofNat (octet.toNat + 256 * ofOctets more) = octet := by
      apply UInt8.toNat_inj.1
      have := octet.toNat_lt_size
      simp only [UInt8.size] at this
      simp only [UInt8.toNat_ofNat']
      omega
    have high : (octet.toNat + 256 * ofOctets more) / 256 = ofOctets more := by
      have := octet.toNat_lt_size
      simp only [UInt8.size] at this
      omega
    simp [octets, ofOctets, low, high, ih]

theorem ofOctets_lt (list : List UInt8) : ofOctets list < limit list.length := by
  induction list with
  | nil => exact Nat.zero_lt_one
  | cons octet more ih =>
    have := octet.toNat_lt_size
    simp only [UInt8.size] at this
    simp only [ofOctets, List.length_cons, limit]
    omega

end TraceTables.Binary
