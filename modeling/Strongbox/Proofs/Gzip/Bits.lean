import Mathlib.Algebra.Group.Nat.Defs
import Strongbox.Gzip.Bits

/-!
# Bits, bytes and numbers

Taking bits is taking the front of a list, and the bits of whole bytes are those bytes again. Numbers of several
bytes have the least significant byte first.
-/

namespace Strongbox

namespace Bits

/-- The number that bits make, the first one the least significant. -/
def value : List Bool → Nat
  | [] => 0
  | b :: bits => b.toNat + 2 * value bits

theorem take?_cons (n : Nat) (b : Bool) (rest : List Bool) (taken : Nat) :
    take? (n + 1) ⟨b :: rest, taken⟩ = (take? n ⟨rest, taken + 1⟩).map fun p => (b.toNat + 2 * p.1, p.2) := by
  cases h : take? n ⟨rest, taken + 1⟩ <;> simp [take?, next?, h]

theorem take?_append (used rest : List Bool) (taken : Nat) :
    take? used.length ⟨used ++ rest, taken⟩ = some (value used, ⟨rest, taken + used.length⟩) := by
  induction used generalizing taken with
  | nil => rfl
  | cons b used ih =>
    rw [List.length_cons, List.cons_append, take?_cons, ih (taken + 1), Option.map_some, value,
      Nat.add_right_comm taken 1, Nat.add_assoc]

theorem take?_eq_some {n v : Nat} {s s' : Bits} (h : take? n s = some (v, s')) :
    ∃ used, used.length = n ∧ v = value used ∧ s.rest = used ++ s'.rest ∧ s'.taken = s.taken + n := by
  induction n generalizing s v with
  | zero =>
    cases h
    exact ⟨[], rfl, rfl, rfl, rfl⟩
  | succ n ih =>
    obtain ⟨rest, taken⟩ := s
    cases rest with
    | nil => simp [take?, next?] at h
    | cons b rest =>
      rw [take?_cons] at h
      obtain ⟨⟨high, after⟩, hs, found⟩ := Option.map_eq_some_iff.mp h
      cases found
      obtain ⟨used, rfl, rfl, hrest, htaken⟩ := ih hs
      refine ⟨b :: used, rfl, rfl, congrArg (b :: ·) hrest, ?_⟩
      rw [htaken, Nat.add_assoc, Nat.add_comm 1]

def ofOctets (bytes : Bytes) : List Bool := bytes.flatMap ofByte

theorem ofOctets_append (bytes more : Bytes) : ofOctets (bytes ++ more) = ofOctets bytes ++ ofOctets more :=
  List.flatMap_append

theorem length_ofOctets (bytes : Bytes) : (ofOctets bytes).length = 8 * bytes.length := by
  induction bytes with
  | nil => rfl
  | cons b rest ih =>
    have split : ofOctets (b :: rest) = ofByte b ++ ofOctets rest := rfl
    have eight : (ofByte b).length = 8 := rfl
    rw [split, List.length_append, ih, eight, List.length_cons]
    omega

theorem value_ofByte_append (b : UInt8) (bits : List Bool) : value (ofByte b ++ bits) = b.toNat + 256 * value bits := by
  have small := b.toNat_lt
  have bit (n : Nat) : (n % 2 == 1).toNat = n % 2 := by
    rcases Nat.mod_two_eq_zero_or_one n with h | h
    · rw [h]
      rfl
    · rw [h]
      rfl
  simp only [ofByte, List.cons_append, List.nil_append, value, bit]
  omega

theorem value_ofByte (b : UInt8) : value (ofByte b) = b.toNat := by
  have := value_ofByte_append b []
  rwa [List.append_nil] at this

theorem ofByte_injective {b c : UInt8} (h : ofByte b = ofByte c) : b = c := by
  apply UInt8.toNat_inj.mp
  rw [← value_ofByte, h, value_ofByte]

theorem exists_byte {bits : List Bool} (h : bits.length = 8) : ∃ b, bits = ofByte b := by
  have all : ∀ b₀ b₁ b₂ b₃ b₄ b₅ b₆ b₇ : Bool,
      ofByte (value [b₀, b₁, b₂, b₃, b₄, b₅, b₆, b₇]).toUInt8 = [b₀, b₁, b₂, b₃, b₄, b₅, b₆, b₇] := by decide
  match bits, h with
  | [b₀, b₁, b₂, b₃, b₄, b₅, b₆, b₇], _ => exact ⟨_, (all b₀ b₁ b₂ b₃ b₄ b₅ b₆ b₇).symm⟩

theorem exists_octets {n : Nat} {bits : List Bool} (h : bits.length = 8 * n) :
    ∃ bytes, bytes.length = n ∧ bits = ofOctets bytes := by
  induction n generalizing bits with
  | zero => exact ⟨[], rfl, List.length_eq_zero_iff.mp h⟩
  | succ n ih =>
    have first : (bits.take 8).length = 8 := by
      rw [List.length_take]
      omega
    have others : (bits.drop 8).length = 8 * n := by
      rw [List.length_drop]
      omega
    obtain ⟨b, isByte⟩ := exists_byte first
    obtain ⟨bytes, rfl, areBytes⟩ := ih others
    refine ⟨b :: bytes, rfl, ?_⟩
    have split : ofOctets (b :: bytes) = ofByte b ++ ofOctets bytes := rfl
    rw [split, ← isByte, ← areBytes, List.take_append_drop]

theorem ofOctets_injective {bytes more : Bytes} (h : ofOctets bytes = ofOctets more) : bytes = more := by
  have lengths : bytes.length = more.length := by
    have same := congrArg List.length h
    rw [length_ofOctets, length_ofOctets] at same
    omega
  induction bytes generalizing more with
  | nil => exact (List.length_eq_zero_iff.mp lengths.symm).symm
  | cons b rest ih =>
    cases more with
    | nil => cases lengths
    | cons c more =>
      have parts : ofByte b ++ ofOctets rest = ofByte c ++ ofOctets more := h
      obtain ⟨first, others⟩ := List.append_inj parts rfl
      rw [ofByte_injective first, ih others (Nat.succ.inj lengths)]

/-- Where bytes begin with the bits of other bytes, they begin with those bytes. -/
theorem split_octets {data front : Bytes} {rest : List Bool} (h : ofOctets data = ofOctets front ++ rest) :
    ∃ back, data = front ++ back ∧ rest = ofOctets back := by
  have lengths := congrArg List.length h
  rw [List.length_append, length_ofOctets, length_ofOctets] at lengths
  have whole : rest.length = 8 * (data.length - front.length) := by omega
  obtain ⟨back, _, rfl⟩ := exists_octets whole
  refine ⟨back, ofOctets_injective ?_, rfl⟩
  rw [h, ofOctets_append]

end Bits

def number : Bytes → Nat
  | [] => 0
  | b :: bytes => b.toNat + 256 * number bytes

theorem number_lt (bytes : Bytes) : number bytes < 256 ^ bytes.length := by
  induction bytes with
  | nil => exact Nat.one_pos
  | cons b rest ih =>
    have small := b.toNat_lt
    rw [number, List.length_cons, Nat.pow_succ]
    omega

def littleEndian : (n : Nat) → (v : Nat) → Bytes
  | 0, _ => []
  | n + 1, v => v.toUInt8 :: littleEndian n (v / 256)

theorem length_littleEndian (n v : Nat) : (littleEndian n v).length = n := by
  induction n generalizing v with
  | zero => rfl
  | succ n ih => rw [littleEndian, List.length_cons, ih]

theorem number_littleEndian {n v : Nat} (h : v < 256 ^ n) : number (littleEndian n v) = v := by
  induction n generalizing v with
  | zero =>
    have zero : v = 0 := by simpa using h
    rw [zero]
    rfl
  | succ n ih =>
    have high : v / 256 < 256 ^ n := by
      rw [Nat.pow_succ] at h
      exact Nat.div_lt_of_lt_mul (by rwa [Nat.mul_comm])
    have low : v.toUInt8.toNat = v % 256 := UInt8.toNat_ofNat'
    rw [littleEndian, number, ih high, low]
    omega

theorem littleEndian_number (bytes : Bytes) : littleEndian bytes.length (number bytes) = bytes := by
  induction bytes with
  | nil => rfl
  | cons b rest ih =>
    have small := b.toNat_lt
    have low : (b.toNat + 256 * number rest).toUInt8 = b := by
      apply UInt8.toNat_inj.mp
      have kept : (b.toNat + 256 * number rest).toUInt8.toNat = (b.toNat + 256 * number rest) % 256 :=
        UInt8.toNat_ofNat'
      rw [kept]
      omega
    have high : (b.toNat + 256 * number rest) / 256 = number rest := by omega
    rw [List.length_cons, number, littleEndian, low, high, ih]

theorem Bits.value_ofOctets (bytes : Bytes) : value (ofOctets bytes) = number bytes := by
  induction bytes with
  | nil => rfl
  | cons b rest ih =>
    have split : ofOctets (b :: rest) = ofByte b ++ ofOctets rest := rfl
    rw [split, value_ofByte_append, ih, number]

end Strongbox
