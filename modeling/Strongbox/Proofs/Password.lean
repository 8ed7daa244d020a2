import Mathlib.Algebra.Group.Nat.Defs
import Strongbox.Password
import Strongbox.Proofs.Encoding.Base64
import Strongbox.Proofs.Text.Decimal
import Strongbox.Proofs.Text.Fields
import Strongbox.Proofs.Text.Parts
import Strongbox.Proofs.Text.Utf8

/-!
# Verifying passwords

The text of a hash is taken apart into the rounds, the salt and the digest that it was put together from, whatever
they are. So a password is accepted exactly if it has the same key as the one that was hashed.
-/

namespace Strongbox

namespace Password

open Base64

def standard (c : CodePoint) : CodePoint := if c = 46 then 43 else c

theorem standard_symbol {v : Nat} (h : v < 64) : standard (symbol 46 47 v) = symbol 43 47 v := by
  have table : ∀ v < 64, standard (symbol 46 47 v) = symbol 43 47 v := by decide
  exact table v h

theorem symbol_plain {v : Nat} (h : v < 64) : symbol 46 47 v < 128 ∧ symbol 46 47 v ≠ 36 := by
  have table : ∀ v < 64, symbol 46 47 v < 128 ∧ symbol 46 47 v ≠ 36 := by decide
  exact table v h

theorem encodeField_plain {data : Bytes} {c : CodePoint} (h : c ∈ encodeField data) : c < 128 ∧ c ≠ 36 := by
  rw [encodeField, encodeWith_eq] at h
  obtain ⟨v, hv, rfl⟩ := List.mem_map.mp h
  exact symbol_plain (sextets_lt hv)

theorem map_standard (data : Bytes) : (encodeField data).map standard = (sextets data).map (symbol 43 47) := by
  rw [encodeField, encodeWith_eq, List.map_map]
  exact List.map_congr_left fun v hv => standard_symbol (sextets_lt hv)

/-- No number of bytes takes one character more than a multiple of four. -/
theorem length_sextets (data : Bytes) : (sextets data).length % 4 ≠ 1 := by
  induction data using sextets.induct with
  | case1 => exact Nat.zero_ne_one
  | case2 a => exact (by decide : 2 % 4 ≠ 1)
  | case3 a b => exact (by decide : 3 % 4 ≠ 1)
  | case4 a b c rest ih =>
    simp only [sextets, List.length_append, List.length_cons, List.length_nil]
    omega

theorem decodeField_encodeField (data : Bytes) : decodeField (encodeField data) = .ok data := by
  have length : (encodeField data).length = (sextets data).length := by
    rw [encodeField, encodeWith_eq, List.length_map]
  have ascii : (encodeField data).any (128 ≤ ·) = false := by
    apply List.any_eq_false.mpr
    intro c hc
    rw [decide_eq_true_eq, Nat.not_le]
    exact (encodeField_plain hc).1
  have pads : (padding (sextets data).length).map standard = padding (sextets data).length := List.map_replicate
  have read : decode? ((encodeField data ++ padding (sextets data).length).map standard) = some data := by
    rw [List.map_append, map_standard, pads]
    exact decode?_sextets data
  unfold decodeField
  rw [ascii, length, if_neg (length_sextets data)]
  unfold padding standard at read
  simp only [Bool.false_eq_true, if_false, read]

variable {rounds : Nat} {salt digest : Bytes}

theorem readRounds_ofNat (positive : 0 < rounds) (small : rounds < 0x100000000) :
    readRounds (Text.ofNat rounds) = .ok (rounds : Int) := by
  have short : (Text.ofNat (rounds : Int).natAbs).length ≤ Text.digitLimit := by
    apply Text.short_of_held
    · omega
    · omega
  have read := Text.readInteger?_ofInt (rounds : Int)
  rw [if_neg (Nat.not_lt.mpr short)] at read
  unfold readRounds
  split
  · rename_i none
    exact absurd none (Text.ofNat_ne_nil rounds)
  · rename_i zero
    have first := Text.head?_ofNat positive
    rw [zero] at first
    exact absurd rfl first
  · simp only [show Text.ofNat rounds = Text.ofInt (rounds : Int) from rfl, read]

theorem readDigest_encodeField (filled : digest ≠ []) : readDigest (encodeField digest) = .ok (some digest) := by
  have some_characters : (encodeField digest).isEmpty = false := by
    rw [List.isEmpty_eq_false_iff]
    intro none
    have read := decodeField_encodeField digest
    rw [none] at read
    cases read
    exact filled rfl
  unfold readDigest
  rw [some_characters, decodeField_encodeField]
  rfl

theorem readParts_write (positive : 0 < rounds) (small : rounds < 0x100000000) (filled : digest ≠ []) :
    readParts (Text.ofNat rounds ++ 36 :: encodeField salt ++ 36 :: encodeField digest) =
      .ok ⟨rounds, salt, some digest⟩ := by
  have digits : ∀ c ∈ Text.ofNat rounds, (c == 36) = false := by
    intro c hc
    obtain ⟨low, _⟩ := Text.isDigit_iff.mp (Text.isDigit_ofNat hc)
    exact beq_eq_false_iff_ne.mpr (Nat.ne_of_gt (Nat.lt_of_lt_of_le (by decide) low))
  have plain : ∀ data : Bytes, ∀ c ∈ encodeField data, (c == 36) = false := by
    intro data c hc
    exact beq_eq_false_iff_ne.mpr (encodeField_plain hc).2
  have pieces : Text.splitBy (· == 36) (Text.ofNat rounds ++ 36 :: encodeField salt ++ 36 :: encodeField digest) =
      [Text.ofNat rounds, encodeField salt, encodeField digest] := by
    rw [List.append_assoc, List.cons_append, Text.splitBy_piece _ digits rfl, Text.splitBy_piece _ (plain salt) rfl,
      Text.splitBy_of_none (plain digest)]
  unfold readParts
  rw [pieces]
  simp only [readRounds_ofNat positive small, decodeField_encodeField, readDigest_encodeField filled]
  rfl

/-- A password is held against what a hash was put together from. -/
theorem verify_write (positive : 0 < rounds) (small : rounds < 0x100000000) (salted : salt.length ≤ 1024)
    (full : digest.length = 32) (password : Text) : verify password (write rounds salt digest) =
      if password.length > lengthLimit then Outcome.fail .longPassword
      else matchesKey password ⟨rounds, salt, some digest⟩ digest := by
  have filled : digest ≠ [] := by
    rintro rfl
    cases full
  have acceptable : (⟨rounds, salt, some digest⟩ : Hash).acceptable = true := by
    simp only [Hash.acceptable, Option.all_some, Bool.and_eq_true, decide_eq_true_eq, beq_iff_eq]
    omega
  have marked : Text.dropLead? mark (write rounds salt digest) =
      some (Text.ofNat rounds ++ 36 :: encodeField salt ++ 36 :: encodeField digest) := by
    unfold write
    rw [List.append_assoc, List.append_assoc, Text.dropLead?_append, List.append_assoc]
  unfold verify
  simp only [marked, readParts_write positive small filled, acceptable, if_true]

theorem length_derive (password salt : Bytes) (rounds : Nat) : (Pbkdf2.derive password salt rounds).length = 32 := rfl

def key? (salt : Bytes) (password : Text) : Option Bytes :=
  (Utf8.encode? password).map fun bytes => Pbkdf2.derive bytes salt defaultRounds

structure Hashable (password : Text) : Prop where
  short : password.length ≤ lengthLimit
  encodable : password.Encodable

variable {password hashed other : Text}

theorem key?_of_encodable (h : password.Encodable) (salt : Bytes) : ∃ key, key? salt password = some key :=
  ⟨_, congrArg (Option.map _) (Utf8.encode?_eq_some.mpr ⟨h, rfl⟩)⟩

theorem hash_ok (h : hash salt password = .ok hashed) : Hashable password ∧
    ∃ key, key? salt password = some key ∧ key.length = 32 ∧ hashed = write defaultRounds salt key := by
  unfold hash at h
  split at h
  · cases h
  · rename_i short
    split at h
    · cases h
    · rename_i bytes hbytes
      cases h
      refine ⟨⟨Nat.not_lt.mp short, (Utf8.encode?_eq_some.mp hbytes).1⟩, _, ?_, length_derive _ _ _, rfl⟩
      rw [key?, hbytes, Option.map_some]

theorem hash_of_hashable (h : Hashable password) (salt : Bytes) : ∃ hashed, hash salt password = .ok hashed := by
  obtain ⟨bytes, encoded⟩ : ∃ bytes, Utf8.encode? password = some bytes :=
    ⟨_, Utf8.encode?_eq_some.mpr ⟨h.encodable, rfl⟩⟩
  refine ⟨write defaultRounds salt (Pbkdf2.derive bytes salt defaultRounds), ?_⟩
  unfold hash
  rw [if_neg (Nat.not_lt.mpr h.short), encoded]

/-- Every character of a new hash is ASCII. -/
theorem hash_encodable (h : hash salt password = .ok hashed) : hashed.Encodable := by
  obtain ⟨_, key, _, _, rfl⟩ := hash_ok h
  have field : ∀ data : Bytes, Text.Ascii (36 :: encodeField data) := by
    intro data
    have plain : (encodeField data).Ascii := fun c hc => (encodeField_plain hc).1
    exact plain.cons (by decide)
  have digits : (Text.ofNat defaultRounds).Ascii := by
    intro c hc
    obtain ⟨_, high⟩ := Text.isDigit_iff.mp (Text.isDigit_ofNat hc)
    exact Nat.lt_of_le_of_lt high (by decide)
  have lead : mark.Ascii := by
    unfold Text.Ascii
    decide
  apply Utf8.encodable_of_ascii
  exact ((lead.append digits).append (field salt)).append (field key)

/-- What becomes of any password that is held against the hash of another one. -/
theorem verify_hash (h : hash salt password = .ok hashed) (salted : salt.length ≤ 1024) (other : Text) :
    verify other hashed =
      if other.length > lengthLimit then Outcome.fail .longPassword
      else match key? salt other with
        | none => Outcome.fail .unencodable
        | some key => .ok (some key == key? salt password) := by
  obtain ⟨_, key, hkey, full, rfl⟩ := hash_ok h
  have rounds : 0 < defaultRounds ∧ defaultRounds < 0x100000000 := by decide
  rw [verify_write rounds.1 rounds.2 salted full, hkey]
  unfold matchesKey key?
  cases Utf8.encode? other with
  | none => rfl
  | some bytes => rfl

theorem verify_own (h : hash salt password = .ok hashed) (salted : salt.length ≤ 1024) :
    verify password hashed = .ok true := by
  obtain ⟨⟨short, _⟩, key, hkey, _⟩ := hash_ok h
  rw [verify_hash h salted, if_neg (Nat.not_lt.mpr short), hkey]
  simp

/-- A password is taken for a wrong one exactly if it can be hashed, and then has another key. -/
theorem verify_wrong_iff (h : hash salt password = .ok hashed) (salted : salt.length ≤ 1024) :
    verify other hashed = .ok false ↔ Hashable other ∧ key? salt other ≠ key? salt password := by
  rw [verify_hash h salted]
  by_cases long : other.length > lengthLimit
  · rw [if_pos long]
    constructor
    · exact nofun
    · rintro ⟨⟨short, _⟩, _⟩
      exact absurd short (Nat.not_le.mpr long)
  · rw [if_neg long]
    cases hkey : key? salt other with
    | none =>
      constructor
      · exact nofun
      · rintro ⟨fits, _⟩
        obtain ⟨key, some⟩ := key?_of_encodable fits.encodable salt
        rw [hkey] at some
        cases some
    | some key =>
      obtain ⟨bytes, encoded, _⟩ := Option.map_eq_some_iff.mp hkey
      have fits : Hashable other := ⟨Nat.not_lt.mp long, (Utf8.encode?_eq_some.mp encoded).1⟩
      simp [fits]

/-- A verification does not fail but by a fault. -/
theorem verify_fails {hash : Text} {e : Failure} (h : verify password hash = .error e) : ∃ f, e = .fault f := by
  unfold verify matchesKey at h
  repeat' split at h
  all_goals cases h
  all_goals exact ⟨_, rfl⟩

end Password

end Strongbox
