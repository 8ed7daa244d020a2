import Strongbox.Proofs.Gzip.Actions

/-!
# Enough fuel

A symbol and a block have one bit at least, so fuel for more than all bits that are left is never used up: what
some amount of it decodes, any such amount decodes.
-/

namespace Strongbox.Deflate

variable {x : Decode α} {a : α} {d d' : Decoder} {fuel fuel' : Nat}

/-- No more bits are left than before. -/
theorem Regular.onward (hx : Regular x) (whole : d.Whole) (h : x d = .ok (a, d')) :
    d'.Whole ∧ d'.bits.rest.length ≤ d.bits.rest.length := by
  obtain ⟨used, takes⟩ := hx.takes whole h
  refine ⟨takes.whole whole, ?_⟩
  rw [takes.rest, List.length_append]
  exact Nat.le_add_left _ _

theorem takeSymbol_shorter {h : Huffman} {s : Nat} (hs : takeSymbol h d = .ok (s, d')) :
    d'.bits.rest.length < d.bits.rest.length := by
  obtain ⟨bits, word, rfl⟩ := takeSymbol_ok hs
  obtain ⟨used, some_bit, rest, _, _⟩ := decodeFrom_symbol word
  rw [rest, List.length_append]
  exact Nat.lt_add_of_pos_left (List.length_pos_iff.mpr some_bit)

theorem takeBits_shorter {n v : Nat} (h : takeBits (n + 1) d = .ok (v, d')) :
    d'.bits.rest.length < d.bits.rest.length := by
  obtain ⟨used, length, _, rest, _⟩ := takeBits_ok h
  rw [rest, List.length_append, length]
  exact Nat.lt_add_of_pos_left (Nat.succ_pos n)

-- The induction is on the fuel that sufficed; the other amount goes down with the bits, not with it.
theorem symbols_of_fuel {c : Codes} (whole : d.Whole) (h : symbols c fuel d = .ok ((), d'))
    (enough : d.bits.rest.length < fuel') : symbols c fuel' d = .ok ((), d') := by
  induction fuel generalizing d fuel' with
  | zero => cases h
  | succ fuel ih =>
    cases fuel' with
    | zero => exact absurd enough (Nat.not_lt_zero _)
    | succ fuel' =>
      obtain ⟨symbol, d₁, word, rest⟩ := ok_of_bind h
      obtain ⟨whole₁, _⟩ := (regular_takeSymbol _).onward whole word
      have shorter := takeSymbol_shorter word
      refine (bind_ok word).trans ?_
      by_cases last : symbol = 256
      · rw [if_pos last] at rest ⊢
        exact rest
      rw [if_neg last] at rest ⊢
      by_cases literal : symbol < 256
      · rw [if_pos literal] at rest ⊢
        obtain ⟨_, d₂, written, more⟩ := ok_of_bind rest
        obtain ⟨whole₂, onward⟩ := (regular_write _).onward whole₁ written
        exact (bind_ok written).trans (ih whole₂ more (by omega))
      · rw [if_neg literal] at rest ⊢
        obtain ⟨_, d₂, matched, more⟩ := ok_of_bind rest
        obtain ⟨whole₂, onward⟩ := (regular_takeMatch c symbol).onward whole₁ matched
        exact (bind_ok matched).trans (ih whole₂ more (by omega))

theorem block_of_fuel {type : Nat} (whole : d.Whole) (h : block fuel type d = .ok ((), d'))
    (enough : d.bits.rest.length < fuel') : block fuel' type d = .ok ((), d') := by
  unfold block at h ⊢
  by_cases stored : type = 0
  · rw [if_pos stored] at h ⊢
    exact h
  rw [if_neg stored] at h ⊢
  by_cases fixed : type = 1
  · rw [if_pos fixed] at h ⊢
    exact symbols_of_fuel whole h enough
  rw [if_neg fixed] at h ⊢
  by_cases dynamic : type = 2
  · rw [if_pos dynamic] at h ⊢
    obtain ⟨codes, d₁, read, rest⟩ := ok_of_bind h
    obtain ⟨whole₁, onward⟩ := regular_takeCodes.onward whole read
    exact (bind_ok read).trans (symbols_of_fuel whole₁ rest (Nat.lt_of_le_of_lt onward enough))
  · rw [if_neg dynamic] at h ⊢
    exact h

theorem blocks_of_fuel (whole : d.Whole) (h : blocks fuel d = .ok ((), d'))
    (enough : d.bits.rest.length < fuel') : blocks fuel' d = .ok ((), d') := by
  induction fuel generalizing d fuel' with
  | zero => cases h
  | succ fuel ih =>
    cases fuel' with
    | zero => exact absurd enough (Nat.not_lt_zero _)
    | succ fuel' =>
      obtain ⟨header, d₁, taken, rest⟩ := ok_of_bind h
      obtain ⟨_, d₂, decoded, more⟩ := ok_of_bind rest
      obtain ⟨whole₁, _⟩ := (regular_takeBits 3).onward whole taken
      obtain ⟨whole₂, onward⟩ := (regular_block _ _).onward whole₁ decoded
      have shorter := takeBits_shorter taken
      refine (bind_ok taken).trans ((bind_ok (block_of_fuel whole₁ decoded (by omega))).trans ?_)
      by_cases last : header % 2 = 1
      · rw [if_pos last] at more ⊢
        exact more
      · rw [if_neg last] at more ⊢
        exact ih whole₂ more (by omega)

end Strongbox.Deflate
