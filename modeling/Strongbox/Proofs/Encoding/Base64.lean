import Strongbox.Encoding.Base64

/-!
# Reading base64 back

What was encoded with the alphabet that is safe in addresses is read back, with the padding added that it was
written without. Its characters are ASCII, and none of them is a point.
-/

namespace Strongbox.Base64

theorem value?_symbol {v : Nat} (h : v < 64) : value? (symbol 43 47 v) = some v := by
  have table : ∀ v < 64, value? (symbol 43 47 v) = some v := by decide
  exact table v h

theorem symbol_ne_pad {v : Nat} (h : v < 64) : symbol 43 47 v ≠ 61 := by
  have table : ∀ v < 64, symbol 43 47 v ≠ 61 := by decide
  exact table v h

def standard (c : CodePoint) : CodePoint := if c = 45 then 43 else if c = 95 then 47 else c

theorem standard_symbol {v : Nat} (h : v < 64) : standard (symbol 45 95 v) = symbol 43 47 v := by
  have table : ∀ v < 64, standard (symbol 45 95 v) = symbol 43 47 v := by decide
  exact table v h

theorem symbol_safe {v : Nat} (h : v < 64) : symbol 45 95 v < 128 ∧ symbol 45 95 v ≠ 46 := by
  have table : ∀ v < 64, symbol 45 95 v < 128 ∧ symbol 45 95 v ≠ 46 := by decide
  exact table v h

variable {bytes : Bytes} {left pads v : Nat}

theorem step_zero (h : v < 64) : step ⟨bytes, 0, left, pads, false⟩ (symbol 43 47 v) = ⟨bytes, 1, v, 0, false⟩ := by
  simp only [step, Bool.false_eq_true, if_false, symbol_ne_pad h, value?_symbol h]

theorem step_one (h : v < 64) : step ⟨bytes, 1, left, pads, false⟩ (symbol 43 47 v) =
    ⟨(left * 4 + v / 16).toUInt8 :: bytes, 2, v % 16, 0, false⟩ := by
  simp only [step, Bool.false_eq_true, if_false, symbol_ne_pad h, value?_symbol h]

theorem step_two (h : v < 64) : step ⟨bytes, 2, left, pads, false⟩ (symbol 43 47 v) =
    ⟨(left * 16 + v / 4).toUInt8 :: bytes, 3, v % 4, 0, false⟩ := by
  simp only [step, Bool.false_eq_true, if_false, symbol_ne_pad h, value?_symbol h]

theorem step_three (h : v < 64) : step ⟨bytes, 3, left, pads, false⟩ (symbol 43 47 v) =
    ⟨(left * 64 + v).toUInt8 :: bytes, 0, 0, 0, false⟩ := by
  simp only [step, Bool.false_eq_true, if_false, symbol_ne_pad h, value?_symbol h]

theorem toUInt8_of_eq {n : Nat} {b : UInt8} (h : n = b.toNat) : n.toUInt8 = b := by
  rw [h, Nat.toUInt8_eq, UInt8.ofNat_toNat]

/-- One group of four characters gives its three bytes. -/
theorem foldl_group (a b c : UInt8) :
    ([a.toNat / 4, a.toNat % 4 * 16 + b.toNat / 16, b.toNat % 16 * 4 + c.toNat / 64, c.toNat % 64].map
      (symbol 43 47)).foldl step ⟨bytes, 0, left, pads, false⟩ = ⟨c :: b :: a :: bytes, 0, 0, 0, false⟩ := by
  have ha := a.toNat_lt
  have hb := b.toNat_lt
  have hc := c.toNat_lt
  have first : a.toNat / 4 * 4 + (a.toNat % 4 * 16 + b.toNat / 16) / 16 = a.toNat := by omega
  have second : (a.toNat % 4 * 16 + b.toNat / 16) % 16 * 16 + (b.toNat % 16 * 4 + c.toNat / 64) / 4 = b.toNat := by
    omega
  have third : (b.toNat % 16 * 4 + c.toNat / 64) % 4 * 64 + c.toNat % 64 = c.toNat := by omega
  simp only [List.map_cons, List.map_nil, List.foldl_cons, List.foldl_nil]
  rw [step_zero (by omega), step_one (by omega), step_two (by omega), step_three (by omega),
    toUInt8_of_eq first, toUInt8_of_eq second, toUInt8_of_eq third]

/-- Two characters and their padding give one byte. -/
theorem foldl_one (a : UInt8) :
    ([a.toNat / 4, a.toNat % 4 * 16].map (symbol 43 47) ++ [61, 61]).foldl step ⟨bytes, 0, left, pads, false⟩ =
      ⟨a :: bytes, 2, 0, 2, true⟩ := by
  have ha := a.toNat_lt
  have first : a.toNat / 4 * 4 + a.toNat % 4 * 16 / 16 = a.toNat := by omega
  have rest : a.toNat % 4 * 16 % 16 = 0 := by omega
  simp only [List.map_cons, List.map_nil, List.cons_append, List.nil_append, List.foldl_cons, List.foldl_nil]
  rw [step_zero (by omega), step_one (by omega), toUInt8_of_eq first, rest]
  rfl

/-- Three characters and their padding give two bytes. -/
theorem foldl_two (a b : UInt8) :
    ([a.toNat / 4, a.toNat % 4 * 16 + b.toNat / 16, b.toNat % 16 * 4].map (symbol 43 47) ++ [61]).foldl step
      ⟨bytes, 0, left, pads, false⟩ = ⟨b :: a :: bytes, 3, 0, 1, true⟩ := by
  have ha := a.toNat_lt
  have hb := b.toNat_lt
  have first : a.toNat / 4 * 4 + (a.toNat % 4 * 16 + b.toNat / 16) / 16 = a.toNat := by omega
  have second : (a.toNat % 4 * 16 + b.toNat / 16) % 16 * 16 + b.toNat % 16 * 4 / 4 = b.toNat := by omega
  have rest : b.toNat % 16 * 4 % 4 = 0 := by omega
  simp only [List.map_cons, List.map_nil, List.cons_append, List.nil_append, List.foldl_cons, List.foldl_nil]
  rw [step_zero (by omega), step_one (by omega), step_two (by omega), toUInt8_of_eq first, toUInt8_of_eq second,
    rest]
  rfl

def sextets : Bytes → List Nat
  | [] => []
  | [a] => [a.toNat / 4, a.toNat % 4 * 16]
  | [a, b] => [a.toNat / 4, a.toNat % 4 * 16 + b.toNat / 16, b.toNat % 16 * 4]
  | a :: b :: c :: rest =>
    [a.toNat / 4, a.toNat % 4 * 16 + b.toNat / 16, b.toNat % 16 * 4 + c.toNat / 64, c.toNat % 64] ++ sextets rest

theorem encodeWith_eq (c62 c63 : CodePoint) (data : Bytes) :
    encodeWith c62 c63 data = (sextets data).map (symbol c62 c63) := by
  induction data using sextets.induct with
  | case1 => rfl
  | case2 a => rfl
  | case3 a b => rfl
  | case4 a b c rest ih => rw [encodeWith, ih, sextets, List.map_append]

theorem sextets_lt {data : Bytes} {v : Nat} (h : v ∈ sextets data) : v < 64 := by
  induction data using sextets.induct with
  | case1 => cases h
  | case2 a =>
    have := a.toNat_lt
    simp only [sextets, List.mem_cons, List.not_mem_nil, or_false] at h
    omega
  | case3 a b =>
    have := a.toNat_lt
    have := b.toNat_lt
    simp only [sextets, List.mem_cons, List.not_mem_nil, or_false] at h
    omega
  | case4 a b c rest ih =>
    have := a.toNat_lt
    have := b.toNat_lt
    have := c.toNat_lt
    rw [sextets, List.mem_append] at h
    rcases h with h | h
    · simp only [List.mem_cons, List.not_mem_nil, or_false] at h
      omega
    · exact ih h

theorem map_standard (data : Bytes) : (encodeUrl data).map standard = (sextets data).map (symbol 43 47) := by
  rw [encodeUrl, encodeWith_eq, List.map_map]
  exact List.map_congr_left fun v hv => standard_symbol (sextets_lt hv)

def padding (length : Nat) : Text := List.replicate ((4 - length % 4) % 4) 61

theorem decodeUrl?_eq (t : Text) : decodeUrl? t = decode? (t.map standard ++ padding t.length) := by
  have pads : (padding t.length).map standard = padding t.length := List.map_replicate
  rw [← pads, ← List.map_append]
  rfl

/-- The end of a text is the end of a group. -/
def Progress.Complete (p : Progress) : Prop := p.stopped = true ∨ p.position = 0

theorem foldl_sextets (data : Bytes) (left pads : Nat) (bytes : Bytes) :
    ∃ p : Progress, ((sextets data).map (symbol 43 47) ++ padding (sextets data).length).foldl step
      ⟨bytes, 0, left, pads, false⟩ = p ∧ p.bytes = data.reverse ++ bytes ∧ p.Complete := by
  induction data using sextets.induct generalizing left pads bytes with
  | case1 => exact ⟨_, rfl, rfl, .inr rfl⟩
  | case2 a =>
    have padded : padding (sextets [a]).length = [61, 61] := rfl
    rw [padded, sextets, foldl_one]
    exact ⟨_, rfl, rfl, .inl rfl⟩
  | case3 a b =>
    have padded : padding (sextets [a, b]).length = [61] := rfl
    rw [padded, sextets, foldl_two]
    exact ⟨_, rfl, rfl, .inl rfl⟩
  | case4 a b c rest ih =>
    have padded : padding (sextets (a :: b :: c :: rest)).length = padding (sextets rest).length := by
      simp only [sextets, List.length_append, List.length_cons, List.length_nil, padding]
      congr 1
      omega
    rw [padded, sextets, List.map_append, List.append_assoc, List.foldl_append, foldl_group]
    obtain ⟨p, hp, hbytes, hcomplete⟩ := ih 0 0 (c :: b :: a :: bytes)
    refine ⟨p, hp, ?_, hcomplete⟩
    rw [hbytes]
    simp

/-- The characters of a byte sequence are read back, with the padding that they were written without. -/
theorem decode?_sextets (data : Bytes) :
    decode? ((sextets data).map (symbol 43 47) ++ padding (sextets data).length) = some data := by
  obtain ⟨p, hp, hbytes, hcomplete⟩ := foldl_sextets data 0 0 []
  have complete : (p.stopped || decide (p.position = 0)) = true := by
    rcases hcomplete with h | h
    · rw [h, Bool.true_or]
    · rw [decide_eq_true h, Bool.or_true]
  rw [decode?, hp]
  simp only [complete, if_true, hbytes, List.append_nil, List.reverse_reverse]

/-- What was encoded is read back. -/
theorem decodeUrl?_encodeUrl (data : Bytes) : decodeUrl? (encodeUrl data) = some data := by
  have length : (encodeUrl data).length = (sextets data).length := by
    rw [encodeUrl, encodeWith_eq, List.length_map]
  rw [decodeUrl?_eq, map_standard, length]
  exact decode?_sextets data

theorem encodeUrl_safe {data : Bytes} {c : CodePoint} (h : c ∈ encodeUrl data) : c < 128 ∧ c ≠ 46 := by
  rw [encodeUrl, encodeWith_eq] at h
  obtain ⟨v, hv, rfl⟩ := List.mem_map.mp h
  exact symbol_safe (sextets_lt hv)

end Strongbox.Base64
