import Strongbox.Json.Parser
import Strongbox.Proofs.Except
import Strongbox.Proofs.Json.Members
import Strongbox.Proofs.Json.Scanning

/-!
# Reading printed values back

What was printed, with or without escapes for characters outside ASCII, is read back as the same value by every
dialect that takes numbers as numbers and goes deep enough.
-/

namespace Strongbox.Json

theorem ofMembers_distinct {members : List (Text × Json)} (h : (members.map (·.1)).Nodup) :
    ofMembers members = .object members :=
  congrArg Json.object (Keyed.collect_of_nodup h)

theorem wholeValue_ofInt {n : Int} (h : (Text.ofNat n.natAbs).length ≤ Text.digitLimit) :
    wholeValue (Text.ofInt n) = .ok (.int n) := by
  have digits : ∀ c ∈ Text.ofNat n.natAbs, Text.isDigit c = true := fun c hc => Text.isDigit_ofNat hc
  rw [wholeValue, Text.splitSign_ofInt]
  simp only [Nat.not_lt.mpr h, if_false, Text.filterMap_asciiDigit? digits, Text.ofDigits_ofNat,
    Text.signed_natAbs]

theorem any_isSurrogate {t : Text} (h : t.Encodable) : t.any Text.isSurrogate = false := by
  rw [List.any_eq_false]
  intro c hc
  have scalar := List.all_eq_true.mp h c hc
  have single := (Utf8.isScalar_iff.mp scalar).2
  rw [single]
  decide

inductive AwaitsValue : Reading → List Frame → Prop
  | value {stack : List Frame} : AwaitsValue (.value stack) stack
  | firstItem {stack : List Frame} : AwaitsValue (.firstItem stack) (.array [] :: stack)

inductive AwaitsName : Reading → List Frame → List (Text × Json) → Prop
  | name {stack : List Frame} {members : List (Text × Json)} : AwaitsName (.name stack members) stack members
  | firstName {stack : List Frame} {members : List (Text × Json)} :
      AwaitsName (.firstName stack members) stack members

/-- Wherever a value may begin and so much room is left, the tokens are read as the value. -/
def Reads (d : Dialect) (room : Nat) (ts : List Token) (v : Json) : Prop :=
  ∀ {state : Reading} {stack : List Frame}, AwaitsValue state stack → stack.length + room ≤ d.depthLimit →
    ts.foldlM (step d) state = .ok (place v stack)

variable {d : Dialect} {room : Nat} {stack : List Frame}

theorem step_value {state : Reading} {token : Token} (h : AwaitsValue state stack) (ht : token ≠ .closeArray) :
    step d state token = beginValue d stack token := by
  cases h with
  | value => rfl
  | firstItem =>
    cases token with
    | closeArray => exact absurd rfl ht
    | _ => rfl

theorem step_name {state : Reading} {members : List (Text × Json)} {name : Text} (h : AwaitsName state stack members)
    (hn : name.Encodable) : step d state (.text name) = .ok (.colon stack members name) := by
  have begun : beginName d stack members (.text name) = .ok (.colon stack members name) := by
    simp only [beginName, any_isSurrogate hn, Bool.false_and, Bool.false_eq_true, if_false]
  cases h with
  | name => exact begun
  | firstName => exact begun

theorem reads_scalar {token : Token} {v : Json} (h : scalar? d token = some (.ok v)) : Reads d room [token] v := by
  intro state stack awaits hd
  have shallow : ¬ stack.length > d.depthLimit := by omega
  have begun : beginValue d stack token = .ok (place v stack) := by
    unfold beginValue
    rw [if_neg shallow]
    cases token with
    | openArray => cases h
    | openObject => cases h
    | _ => simp only [h]
  have other : token ≠ .closeArray := by
    rintro rfl
    cases h
  rw [List.foldlM_cons, step_value awaits other, begun]
  rfl

theorem scalar?_text {t : Text} (h : t.Encodable) : scalar? d (.text t) = some (.ok (.text t)) := by
  simp only [scalar?, any_isSurrogate h, Bool.false_and, Bool.false_eq_true, if_false]

/-- The items of an array after what was read of it. -/
theorem foldlM_items {items : List Json} (done : List Json) {state : Reading} (awaits : AwaitsValue state (.array done :: stack))
    (filled : items ≠ []) (h : ∀ v ∈ items, Reads d room (tokens v) v) (hd : stack.length + (room + 1) ≤ d.depthLimit) :
    (itemTokens items ++ [Token.closeArray]).foldlM (step d) state =
      .ok (place (.array (done.reverse ++ items)) stack) := by
  -- the first item may come right after the bracket, every other one after a comma
  induction items generalizing done state with
  | nil => exact absurd rfl filled
  | cons v rest ih =>
    have inside : (Frame.array done :: stack).length + room ≤ d.depthLimit := by
      rw [List.length_cons]
      omega
    have first := h v List.mem_cons_self awaits inside
    have done' : (v :: done).reverse = done.reverse ++ [v] := List.reverse_cons
    cases rest with
    | nil =>
      rw [itemTokens, List.foldlM_append, first, ← done']
      rfl
    | cons w rest =>
      have more := ih (v :: done) .value (by simp) fun u hu => h u (List.mem_cons_of_mem v hu)
      rw [done', List.append_assoc, List.singleton_append] at more
      rw [itemTokens, List.append_assoc, List.foldlM_append, first]
      exact more

theorem reads_array {items : List Json} (h : ∀ v ∈ items, Reads d room (tokens v) v) :
    Reads d (room + 1) (tokens (.array items)) (.array items) := by
  intro state stack awaits hd
  have shallow : ¬ stack.length > d.depthLimit := by omega
  have opened : step d state .openArray = .ok (.firstItem stack) := by
    rw [step_value awaits (by simp), beginValue, if_neg shallow]
  rw [tokens, List.cons_append, List.foldlM_cons, opened]
  cases items with
  | nil => rfl
  | cons v rest => exact foldlM_items [] .firstItem (by simp) h hd

theorem foldlM_member {name : Text} {v : Json} {members : List (Text × Json)} {state : Reading}
    (awaits : AwaitsName state stack members) (hn : name.Encodable) (h : Reads d room (tokens v) v)
    (hd : stack.length + (room + 1) ≤ d.depthLimit) :
    (.text name :: .colon :: tokens v).foldlM (step d) state = .ok (.next (.object ((name, v) :: members)) stack) := by
  have inside : (Frame.entry members name :: stack).length + room ≤ d.depthLimit := by
    rw [List.length_cons]
    omega
  rw [List.foldlM_cons, step_name awaits hn]
  exact h .value inside

/-- The members of an object after what was read of it. -/
theorem foldlM_members {members : List (Text × Json)} (done : List (Text × Json)) {state : Reading} (awaits : AwaitsName state stack done)
    (filled : members ≠ []) (hn : ∀ m ∈ members, m.1.Encodable) (h : ∀ m ∈ members, Reads d room (tokens m.2) m.2)
    (hd : stack.length + (room + 1) ≤ d.depthLimit) :
    (memberTokens members ++ [Token.closeObject]).foldlM (step d) state =
      .ok (place (ofMembers (done.reverse ++ members)) stack) := by
  induction members generalizing done state with
  | nil => exact absurd rfl filled
  | cons m rest ih =>
    obtain ⟨name, v⟩ := m
    have first := foldlM_member awaits (hn _ List.mem_cons_self) (h _ List.mem_cons_self) hd
    have done' : ((name, v) :: done).reverse = done.reverse ++ [(name, v)] := List.reverse_cons
    cases rest with
    | nil =>
      rw [memberTokens, List.foldlM_append, first, ← done']
      rfl
    | cons m' rest =>
      have more := ih ((name, v) :: done) .name (by simp) (fun u hu => hn u (List.mem_cons_of_mem _ hu))
        fun u hu => h u (List.mem_cons_of_mem _ hu)
      rw [done', List.append_assoc, List.singleton_append] at more
      rw [memberTokens, List.append_assoc, List.foldlM_append, first]
      exact more

theorem reads_object {members : List (Text × Json)} (distinct : (members.map (·.1)).Nodup)
    (hn : ∀ m ∈ members, m.1.Encodable) (h : ∀ m ∈ members, Reads d room (tokens m.2) m.2) :
    Reads d (room + 1) (tokens (.object members)) (.object members) := by
  intro state stack awaits hd
  have shallow : ¬ stack.length > d.depthLimit := by omega
  have opened : step d state .openObject = .ok (.firstName stack []) := by
    rw [step_value awaits (by simp), beginValue, if_neg shallow]
  rw [tokens, List.cons_append, List.foldlM_cons, opened]
  cases members with
  | nil => rfl
  | cons m rest =>
    have read := foldlM_members [] .firstName (by simp) hn h hd
    rw [List.reverse_nil, List.nil_append, ofMembers_distinct distinct] at read
    exact read

theorem reads_tokens (numbers : d.numbersAsText = false) {v : Json} (h : Exact room v) : Reads d room (tokens v) v := by
  induction h with
  | null => exact reads_scalar rfl
  | bool => exact reads_scalar rfl
  | int short => exact reads_scalar (by simp only [scalar?, numbers, wholeValue_ofInt short, Bool.false_eq_true, if_false])
  | text encodable => exact reads_scalar (scalar?_text encodable)
  | array _ ih => exact reads_array ih
  | object distinct encodable _ ih => exact reads_object distinct encodable ih

/-- What was printed is read back. -/
theorem parse_print (numbers : d.numbersAsText = false) (deep : room ≤ d.depthLimit) (ascii : Bool) {v : Json}
    (h : Exact room v) : parse d (print ascii v) = .ok v := by
  have read := reads_tokens numbers h .value (by rw [List.length_nil, Nat.zero_add]; exact deep)
  rw [parse, lex_print ascii h, ofTokens, read]
  rfl

open Text (Ascii)

theorem ascii_ofNat (n : Nat) : Ascii (Text.ofNat n) := by
  intro c hc
  obtain ⟨_, high⟩ := Text.isDigit_iff.mp (Text.isDigit_ofNat hc)
  exact Nat.lt_of_le_of_lt high (by decide)

theorem ascii_ofInt (n : Int) : Ascii (Text.ofInt n) := by
  cases n with
  | ofNat n => exact ascii_ofNat n
  | negSucc n => exact (ascii_ofNat (n + 1)).cons (by decide)

theorem ascii_unitEscape (u : Nat) : Ascii (unitEscape u) := by
  have digit : ∀ d < 16, Text.hexDigit d < 128 := by decide
  have padded : ∀ k n, Ascii (Text.hexPadded k n) := by
    intro k
    induction k with
    | zero => exact fun _ => Ascii.nil
    | succ k ih => exact fun n => (ih (n / 16)).append (Ascii.nil.cons (digit _ (Nat.mod_lt n (by decide))))
  exact ((padded 4 u).cons (by decide)).cons (by decide)

theorem ascii_printCodePoint (c : Nat) : Ascii (printCodePoint true c) := by
  by_cases letter : c ∈ [34, 92, 8, 9, 10, 12, 13]
  · simp only [List.mem_cons, List.not_mem_nil, or_false] at letter
    rcases letter with rfl | rfl | rfl | rfl | rfl | rfl | rfl
    all_goals exact (Ascii.nil.cons (by decide)).cons (by decide)
  · simp only [List.mem_cons, List.not_mem_nil, or_false, not_or] at letter
    obtain ⟨quote, backslash, h8, h9, h10, h12, h13⟩ := letter
    simp only [printCodePoint, quote, backslash, h8, h9, h10, h12, h13, if_false, Bool.true_and, decide_eq_true_eq]
    split
    · exact ascii_unitEscape c
    by_cases high : c ≥ 127
    · rw [if_pos high]
      split
      · exact ascii_unitEscape c
      · exact (ascii_unitEscape _).append (ascii_unitEscape _)
    · rw [if_neg high]
      exact Ascii.nil.cons (Nat.lt_succ_of_lt (Nat.lt_of_not_le high))

/-- Without such escapes a character stands for itself, or has the escape that it has with them. -/
theorem printCodePoint_false (c : Nat) :
    printCodePoint false c = printCodePoint true c ∨ printCodePoint false c = [c] := by
  by_cases control : c < 32
  · left
    simp only [printCodePoint, control, if_true]
  · simp only [printCodePoint, control, if_false, Bool.false_and, Bool.false_eq_true]
    repeat' split
    all_goals simp

/-- A value whose texts have an encoded form, however deep it is and however long its numbers are. -/
inductive Printable : Json → Prop
  | null : Printable .null
  | bool {b : Bool} : Printable (.bool b)
  | int {n : Int} : Printable (.int n)
  | text {t : Text} (encodable : t.Encodable) : Printable (.text t)
  | array {items : List Json} (printable : ∀ v ∈ items, Printable v) : Printable (.array items)
  | object {members : List (Text × Json)} (encodable : ∀ m ∈ members, m.1.Encodable)
      (printable : ∀ m ∈ members, Printable m.2) : Printable (.object members)

theorem Exact.printable {v : Json} (h : Exact room v) : Printable v := by
  induction h with
  | null => exact .null
  | bool => exact .bool
  | int _ => exact .int
  | text encodable => exact .text encodable
  | array _ ih => exact .array ih
  | object _ encodable _ ih => exact .object encodable ih

section Characters

variable {p : CodePoint → Prop} (plain : ∀ c < 128, p c) {ascii : Bool}
include plain

theorem forall_mem_cons {c : CodePoint} {t : Text} (hc : c < 128) (ht : ∀ d ∈ t, p d) : ∀ d ∈ c :: t, p d :=
  List.forall_mem_cons.mpr ⟨plain c hc, ht⟩

theorem forall_mem_printText {t : Text} (h : ∀ c ∈ t, ∀ d ∈ printCodePoint ascii c, p d) :
    ∀ d ∈ printText ascii t, p d := by
  have inside : ∀ d ∈ t.flatMap (printCodePoint ascii), p d := by
    intro d hd
    obtain ⟨c, hc, hd⟩ := List.mem_flatMap.mp hd
    exact h c hc d hd
  have quoted := forall_mem_cons plain (show 34 < 128 by decide) inside
  exact List.forall_mem_append.mpr ⟨quoted, List.forall_mem_singleton.mpr (plain 34 (by decide))⟩

theorem forall_mem_items {items : List Json} (h : ∀ v ∈ items, ∀ d ∈ print ascii v, p d) :
    ∀ d ∈ printItems ascii items, p d := by
  induction items with
  | nil => exact List.forall_mem_nil p
  | cons v rest ih =>
    have first := h v List.mem_cons_self
    cases rest with
    | nil => exact first
    | cons w rest =>
      have more := ih fun u hu => h u (List.mem_cons_of_mem v hu)
      exact List.forall_mem_append.mpr ⟨first, forall_mem_cons plain (by decide) more⟩

theorem forall_mem_members {members : List (Text × Json)} (names : ∀ m ∈ members, ∀ d ∈ printText ascii m.1, p d)
    (h : ∀ m ∈ members, ∀ d ∈ print ascii m.2, p d) : ∀ d ∈ printMembers ascii members, p d := by
  induction members with
  | nil => exact List.forall_mem_nil p
  | cons m rest ih =>
    obtain ⟨name, v⟩ := m
    have first : ∀ d ∈ printText ascii name ++ 58 :: print ascii v, p d :=
      List.forall_mem_append.mpr ⟨names _ List.mem_cons_self, forall_mem_cons plain (by decide) (h _ List.mem_cons_self)⟩
    cases rest with
    | nil => exact first
    | cons m' rest =>
      have more := ih (fun u hu => names u (List.mem_cons_of_mem _ hu)) fun u hu => h u (List.mem_cons_of_mem _ hu)
      exact List.forall_mem_append.mpr ⟨first, forall_mem_cons plain (by decide) more⟩

theorem forall_mem_enclosed {first last : CodePoint} {t : Text} (hf : first < 128) (hl : last < 128) (h : ∀ d ∈ t, p d) :
    ∀ d ∈ first :: t ++ [last], p d :=
  List.forall_mem_append.mpr ⟨forall_mem_cons plain hf h, List.forall_mem_singleton.mpr (plain last hl)⟩

/-- What holds of ASCII and of the printed form of every character holds all through the printed form. -/
theorem forall_mem_print (char : ∀ c, Text.isScalar c = true → ∀ d ∈ printCodePoint ascii c, p d) {v : Json}
    (h : Printable v) : ∀ d ∈ print ascii v, p d := by
  have quoted : ∀ {t : Text}, t.Encodable → ∀ d ∈ printText ascii t, p d := fun encodable =>
    forall_mem_printText plain fun c hc => char c (List.all_eq_true.mp encodable c hc)
  have word : ∀ {t : Text}, Ascii t → ∀ d ∈ t, p d := fun low d hd => plain d (low d hd)
  induction h with
  | null => exact word (t := Text.ofString "null") (by unfold Ascii; decide)
  | @bool b => exact word (t := Text.ofString (if b then "true" else "false")) (by cases b <;> unfold Ascii <;> decide)
  | int => exact word (ascii_ofInt _)
  | text encodable => exact quoted encodable
  | array _ ih => exact forall_mem_enclosed plain (by decide) (by decide) (forall_mem_items plain ih)
  | object encodable _ ih =>
    have names := fun m hm => quoted (encodable m hm)
    exact forall_mem_enclosed plain (by decide) (by decide) (forall_mem_members plain names ih)

end Characters

/-- With escapes for everything outside ASCII, the printed form is ASCII. -/
theorem ascii_toAscii {v : Json} (h : Exact room v) : Ascii (toAscii v) :=
  forall_mem_print (fun _ low => low) (fun c _ => ascii_printCodePoint c) h.printable

theorem decode?_toAscii {v : Json} (h : Exact room v) : Utf8.decode? (toAscii v).asciiBytes = some (toAscii v) :=
  Utf8.decode?_of_encode? (Utf8.encode?_of_ascii (ascii_toAscii h))

/-- The printed form can be encoded, with or without escapes. -/
theorem encodable_toText {v : Json} (h : Printable v) : (toText v).Encodable := by
  have plain : ∀ c < 128, Text.isScalar c = true := by
    intro c low
    have single : Ascii [c] := Ascii.nil.cons low
    exact List.all_eq_true.mp (Utf8.encodable_of_ascii single) c List.mem_cons_self
  refine List.all_eq_true.mpr (forall_mem_print (p := fun c => Text.isScalar c = true) plain ?_ h)
  intro c scalar d hd
  rcases printCodePoint_false c with same | self
  · rw [same] at hd
    exact plain d (ascii_printCodePoint c d hd)
  · rw [self, List.mem_singleton] at hd
    rw [hd]
    exact scalar

/-- The printed form has bytes, and they are read back as the value. -/
theorem parseStrict_toText (deep : room ≤ Dialect.strict.depthLimit) {v : Json} (h : Exact room v) :
    ∃ bytes, Utf8.encode? (toText v) = some bytes ∧ parseStrict bytes = .ok v := by
  have encoded := Utf8.encode?_eq_some.mpr ⟨encodable_toText h.printable, rfl⟩
  refine ⟨_, encoded, ?_⟩
  rw [parseStrict, Utf8.decode?_of_encode? encoded]
  exact parse_print rfl deep false h

end Strongbox.Json
