import Mathlib.Data.List.TakeWhile
import Strongbox.Json.Lexer
import Strongbox.Json.Printer
import Strongbox.Proofs.Text.Decimal
import Strongbox.Proofs.Text.Utf8

/-!
# Scanning printed values

The printed form of a value is scanned as its tokens. A number or a word ends only with the character after it,
so a value is scanned up to a state that every mark leaves in the same way.
-/

namespace Strongbox.Json

open Scanner

/-- A value nested so deep at most whose texts have an encoded form, whose numbers are short enough to be read, and
whose names are distinct. Reals are left out. -/
inductive Exact : Nat → Json → Prop
  | null {room : Nat} : Exact room .null
  | bool {room : Nat} {b : Bool} : Exact room (.bool b)
  | int {room : Nat} {n : Int} (short : (Text.ofNat n.natAbs).length ≤ Text.digitLimit) : Exact room (.int n)
  | text {room : Nat} {t : Text} (encodable : t.Encodable) : Exact room (.text t)
  | array {room : Nat} {items : List Json} (exact : ∀ v ∈ items, Exact room v) : Exact (room + 1) (.array items)
  | object {room : Nat} {members : List (Text × Json)} (distinct : (members.map (·.1)).Nodup)
      (encodable : ∀ m ∈ members, m.1.Encodable) (exact : ∀ m ∈ members, Exact room m.2) :
      Exact (room + 1) (.object members)

mutual

def tokens : Json → List Token
  | .null => [.null]
  | .bool b => [.bool b]
  | .int n => [.whole (Text.ofInt n)]
  | .real x => lex (printReal x)
  | .text t => [.text t]
  | .array items => .openArray :: itemTokens items ++ [.closeArray]
  | .object members => .openObject :: memberTokens members ++ [.closeObject]

def itemTokens : List Json → List Token
  | [] => []
  | [v] => tokens v
  | v :: w :: rest => tokens v ++ .comma :: itemTokens (w :: rest)

def memberTokens : List (Text × Json) → List Token
  | [] => []
  | [(name, v)] => .text name :: .colon :: tokens v
  | (name, v) :: m :: rest => .text name :: .colon :: tokens v ++ .comma :: memberTokens (m :: rest)

end

structure Scanner.Settled (s : Scanner) (tokens : List Token) : Prop where
  finish : s.finish = tokens.reverse
  mark : ∀ c token, markToken? c = some token → s.step c = .between (token :: tokens)

theorem markToken?_cases {c : CodePoint} {token : Token} (h : markToken? c = some token) :
    c ∈ [91, 93, 123, 125, 44, 58] := by
  by_cases hm : c ∈ [91, 93, 123, 125, 44, 58]
  · exact hm
  · simp only [List.mem_cons, List.not_mem_nil, or_false, not_or] at hm
    obtain ⟨h1, h2, h3, h4, h5, h6⟩ := hm
    simp [markToken?, h1, h2, h3, h4, h5, h6] at h

/-- A mark is part of no number and of no word. -/
theorem mark_ends {c : CodePoint} {token : Token} (h : markToken? c = some token) :
    isNumberPart c = false ∧ isLetter c = false := by
  have table : ∀ c ∈ [91, 93, 123, 125, 44, 58], isNumberPart c = false ∧ isLetter c = false := by decide
  exact table c (markToken?_cases h)

theorem start_mark {c : CodePoint} {token : Token} (h : markToken? c = some token) (before : List Token) :
    start before c = .between (token :: before) := by
  have table : ∀ c ∈ [91, 93, 123, 125, 44, 58],
      isSpace c = false ∧ c ≠ 34 ∧ (c = 45 || Text.isDigit c) = false ∧ isLetter c = false := by decide
  obtain ⟨space, quote, digit, letter⟩ := table c (markToken?_cases h)
  simp only [start, space, quote, digit, letter, Bool.false_eq_true, if_false, h]

theorem settled_between (tokens : List Token) : (Scanner.between tokens).Settled tokens :=
  ⟨rfl, fun _ _ h => start_mark h tokens⟩

theorem settled_word {tokens : List Token} {letters : Text} {token : Token} (h : wordToken letters.reverse = token) :
    (Scanner.word tokens letters).Settled (token :: tokens) := by
  have close : closeWord tokens letters = token :: tokens := by rw [closeWord, h]
  refine ⟨by rw [finish, close], fun c mark hc => ?_⟩
  obtain ⟨_, letter⟩ := mark_ends hc
  simp only [step, letter, Bool.false_eq_true, if_false, close, start_mark hc]

theorem settled_number {tokens : List Token} {lexeme : Text} {token : Token}
    (h : numberTokens lexeme.reverse = [token]) : (Scanner.number tokens lexeme).Settled (token :: tokens) := by
  have close : closeNumber tokens lexeme = token :: tokens := by
    rw [closeNumber, h]
    rfl
  refine ⟨by rw [finish, close], fun c mark hc => ?_⟩
  obtain ⟨part, letter⟩ := mark_ends hc
  simp only [step, part, letter, Bool.and_false, Bool.false_eq_true, if_false, close, start_mark hc]

/-- Read from between two tokens, the text is these tokens. -/
def Scans (printed : Text) (tokens : List Token) : Prop :=
  ∀ before, (printed.foldl step (.between before)).Settled (tokens.reverse ++ before)

theorem scans_nil : Scans [] [] := settled_between

/-- A mark between two parts is a token of its own. -/
theorem Scans.mark {p q : Text} {ps qs : List Token} {c : CodePoint} {token : Token} (hp : Scans p ps)
    (hc : markToken? c = some token) (hq : Scans q qs) : Scans (p ++ c :: q) (ps ++ token :: qs) := by
  intro before
  have after := hq (token :: (ps.reverse ++ before))
  rw [List.foldl_append, List.foldl_cons, (hp before).mark c token hc]
  rw [List.reverse_append, List.reverse_cons, List.append_assoc, List.append_assoc]
  exact after

theorem Scans.lex_eq {p : Text} {ps : List Token} (h : Scans p ps) : lex p = ps := by
  rw [lex, (h []).finish, List.append_nil, List.reverse_reverse]

theorem scans_word {p : Text} {token : Token} (run : ∀ before, p.foldl step (.between before) = .word before p.reverse)
    (h : wordToken p = token) : Scans p [token] := by
  intro before
  rw [run before]
  exact settled_word (by rw [List.reverse_reverse, h])

theorem scans_null : Scans (Text.ofString "null") [.null] := scans_word (fun _ => rfl) rfl

theorem scans_bool (b : Bool) : Scans (Text.ofString (if b then "true" else "false")) [.bool b] := by
  cases b with
  | true => exact scans_word (fun _ => rfl) rfl
  | false => exact scans_word (fun _ => rfl) rfl

theorem isNumberPart_of_isDigit {c : CodePoint} (h : Text.isDigit c = true) : isNumberPart c = true := by
  simp only [isNumberPart, h, Bool.true_or]

theorem foldl_digits {t : Text} (h : ∀ c ∈ t, Text.isDigit c = true) (before : List Token) (lexeme : Text) :
    t.foldl step (.number before lexeme) = .number before (t.reverse ++ lexeme) := by
  induction t generalizing lexeme with
  | nil => rfl
  | cons c rest ih =>
    have part := isNumberPart_of_isDigit (h c List.mem_cons_self)
    have first : step (.number before lexeme) c = .number before (c :: lexeme) := by
      simp only [step, part, if_true]
    rw [List.foldl_cons, first, ih (fun d hd => h d (List.mem_cons_of_mem c hd)), List.reverse_cons,
      List.append_assoc, List.singleton_append]

theorem start_digit {c : Nat} (h : Text.isDigit c = true) (before : List Token) :
    start before c = .number before [c] := by
  obtain ⟨low, high⟩ := Text.isDigit_iff.mp h
  have table : ∀ c < 58, 48 ≤ c → isSpace c = false ∧ c ≠ 34 := by decide
  obtain ⟨space, quote⟩ := table c (Nat.lt_succ_of_le high) low
  simp only [start, space, quote, h, Bool.or_true, Bool.false_eq_true, if_false, if_true]

theorem splitWhole_ofNat (n : Nat) : splitWhole (Text.ofNat n) = (Text.ofNat n, []) := by
  have digits : ∀ c ∈ Text.ofNat n, Text.isDigit c = true := fun c hc => Text.isDigit_ofNat hc
  by_cases hn : n = 0
  · subst hn
    rfl
  · have lead := Text.head?_ofNat (n := n) (by omega)
    unfold splitWhole
    split
    · rename_i hc
      rw [hc] at lead
      exact absurd rfl lead
    · rw [List.takeWhile_eq_self_iff.mpr digits, List.dropWhile_eq_nil_iff.mpr digits]

theorem numberTokens_ofInt (n : Int) : numberTokens (Text.ofInt n) = [.whole (Text.ofInt n)] := by
  have filled : ∀ m, (Text.ofNat m).isEmpty = false := fun m => List.isEmpty_eq_false_iff.mpr (Text.ofNat_ne_nil m)
  cases n with
  | ofNat n =>
    have unsigned : ∀ rest, Text.ofNat n ≠ 45 :: rest := by
      intro rest hr
      have minus := Text.isDigit_ofNat (n := n) (c := 45) (by rw [hr]; exact List.mem_cons_self)
      exact absurd minus (by decide)
    unfold numberTokens Text.ofInt
    split
    rename_i sign body hb
    split at hb
    · rename_i hn
      exact absurd hn (unsigned _)
    · cases hb
      simp [splitWhole_ofNat, filled, splitFraction, splitExponent]
  | negSucc n =>
    unfold numberTokens Text.ofInt
    simp [splitWhole_ofNat, filled, splitFraction, splitExponent]

theorem foldl_ofNat (n : Nat) (before : List Token) :
    (Text.ofNat n).foldl step (.between before) = .number before (Text.ofNat n).reverse := by
  have digits : ∀ c ∈ Text.ofNat n, Text.isDigit c = true := fun c hc => Text.isDigit_ofNat hc
  cases hn : Text.ofNat n with
  | nil => exact absurd hn (Text.ofNat_ne_nil n)
  | cons c rest =>
    rw [hn] at digits
    have first : step (.between before) c = .number before [c] :=
      start_digit (digits c List.mem_cons_self) before
    rw [List.foldl_cons, first, foldl_digits fun d hd => digits d (List.mem_cons_of_mem c hd), List.reverse_cons]

theorem foldl_ofInt (n : Int) (before : List Token) :
    (Text.ofInt n).foldl step (.between before) = .number before (Text.ofInt n).reverse := by
  cases n with
  | ofNat n => exact foldl_ofNat n before
  | negSucc n =>
    have digits : ∀ c ∈ Text.ofNat (n + 1), Text.isDigit c = true := fun c hc => Text.isDigit_ofNat hc
    have first : step (.between before) 45 = .number before [45] := rfl
    rw [Text.ofInt, List.foldl_cons, first, foldl_digits digits, List.reverse_cons]

theorem scans_int (n : Int) : Scans (Text.ofInt n) [.whole (Text.ofInt n)] := by
  intro before
  rw [foldl_ofInt n before]
  exact settled_number (by rw [List.reverse_reverse, numberTokens_ofInt])

/-- Read inside of quotes, a printed text is pieces that join to the text. -/
def Spells (printed t : Text) : Prop :=
  ∃ pieces, (∀ before read, printed.foldl step (.string before read) = .string before (pieces.reverse ++ read)) ∧
    ∀ rest, joinPieces (pieces ++ rest) = t ++ joinPieces rest

theorem spells_nil : Spells [] [] := ⟨[], fun _ _ => rfl, fun _ => rfl⟩

theorem Spells.append {p q t u : Text} (h : Spells p t) (h' : Spells q u) : Spells (p ++ q) (t ++ u) := by
  obtain ⟨pieces, run, joined⟩ := h
  obtain ⟨pieces', run', joined'⟩ := h'
  refine ⟨pieces ++ pieces', fun before read => ?_, fun rest => ?_⟩
  · rw [List.foldl_append, run, run', List.reverse_append, List.append_assoc]
  · rw [List.append_assoc, joined, joined', List.append_assoc]

theorem spells_plain {c : CodePoint} (control : ¬ c < 32) (quote : c ≠ 34) (backslash : c ≠ 92) : Spells [c] [c] := by
  refine ⟨[.plain c], fun before read => ?_, fun rest => by simp [joinPieces]⟩
  simp only [List.foldl_cons, List.foldl_nil, step, quote, backslash, control, if_false]
  rfl

theorem spells_escape {e c : CodePoint} (h : escaped? e = some c) (numeric : e ≠ 117) : Spells [92, e] [c] := by
  refine ⟨[.plain c], fun before read => ?_, fun rest => by simp [joinPieces]⟩
  have backslash : step (.string before read) 92 = .escape before read := rfl
  rw [List.foldl_cons, backslash, List.foldl_cons, List.foldl_nil]
  simp only [step, numeric, h, if_false]
  rfl

theorem hexValue?_hexDigit {d : Nat} (h : d < 16) : hexValue? (Text.hexDigit d) = some d := by
  have table : ∀ d < 16, hexValue? (Text.hexDigit d) = some d := by decide
  exact table d h

theorem hexPadded_four (u : Nat) : Text.hexPadded 4 u = [Text.hexDigit (u / 4096 % 16), Text.hexDigit (u / 256 % 16),
    Text.hexDigit (u / 16 % 16), Text.hexDigit (u % 16)] := by
  simp [Text.hexPadded, Nat.div_div_eq_div_mul]

theorem foldl_unitEscape {u : Nat} (h : u < 0x10000) (before : List Token) (read : List Piece) :
    (unitEscape u).foldl step (.string before read) = .string before (.unit u :: read) := by
  have value : ((u / 4096 % 16 * 16 + u / 256 % 16) * 16 + u / 16 % 16) * 16 + u % 16 = u := by omega
  have digit : ∀ n, hexValue? (Text.hexDigit (n % 16)) = some (n % 16) :=
    fun n => hexValue?_hexDigit (Nat.mod_lt n (by decide))
  have escape : step (.string before read) 92 = .escape before read := rfl
  have numeric : step (.escape before read) 117 = .hexadecimal before read 0 0 := rfl
  rw [unitEscape, hexPadded_four, List.foldl_cons, escape, List.foldl_cons, numeric]
  simp only [List.foldl_cons, List.foldl_nil, step, digit, Nat.reduceAdd, Nat.reduceLT, if_true, if_false]
  simp [value]

theorem isSurrogate_eq_false {c : Nat} : Text.isSurrogate c = false ↔ c < 0xD800 ∨ 0xDFFF < c := by
  rw [Text.isSurrogate, Bool.and_eq_false_iff, decide_eq_false_iff_not, decide_eq_false_iff_not]
  exact or_congr Nat.not_le Nat.not_le

/-- A unit that is no surrogate is a character by itself. -/
theorem joinPieces_unit {u : Nat} (h : Text.isSurrogate u = false) (rest : List Piece) :
    joinPieces (.unit u :: rest) = u :: joinPieces rest := by
  cases rest with
  | nil => simp [joinPieces]
  | cons piece rest =>
    cases piece with
    | plain c => simp [joinPieces]
    | unit v =>
      have single : (0xD800 ≤ u && u < 0xDC00 && 0xDC00 ≤ v && v < 0xE000) = false := by
        have range := isSurrogate_eq_false.mp h
        simp only [Bool.and_eq_false_iff, decide_eq_false_iff_not]
        omega
      rw [joinPieces, single]
      rfl

theorem spells_unit {u : Nat} (short : u < 0x10000) (h : Text.isSurrogate u = false) : Spells (unitEscape u) [u] :=
  ⟨[.unit u], fun before read => foldl_unitEscape short before read, fun rest => joinPieces_unit h rest⟩

/-- A character beyond the first plane is escaped as two surrogates, which are joined again. -/
theorem spells_pair {c : Nat} (low : 0x10000 ≤ c) (high : c < 0x110000) :
    Spells (unitEscape (0xD800 + (c - 0x10000) / 1024) ++ unitEscape (0xDC00 + (c - 0x10000) % 1024)) [c] := by
  have first : (c - 0x10000) / 1024 < 1024 := by omega
  have second : (c - 0x10000) % 1024 < 1024 := Nat.mod_lt _ (by decide)
  refine ⟨[.unit (0xD800 + (c - 0x10000) / 1024), .unit (0xDC00 + (c - 0x10000) % 1024)],
    fun before read => ?_, fun rest => ?_⟩
  · rw [List.foldl_append, foldl_unitEscape (by omega), foldl_unitEscape (by omega)]
    rfl
  · have pair : (0xD800 ≤ 0xD800 + (c - 0x10000) / 1024 && 0xD800 + (c - 0x10000) / 1024 < 0xDC00 &&
        0xDC00 ≤ 0xDC00 + (c - 0x10000) % 1024 && 0xDC00 + (c - 0x10000) % 1024 < 0xE000) = true := by
      simp only [Bool.and_eq_true, decide_eq_true_eq]
      omega
    have joined : 0x10000 + (0xD800 + (c - 0x10000) / 1024 - 0xD800) * 1024 +
        (0xDC00 + (c - 0x10000) % 1024 - 0xDC00) = c := by omega
    rw [List.cons_append, List.cons_append, joinPieces, if_pos pair, joined]
    rfl

theorem spells_printCodePoint (ascii : Bool) {c : Nat} (h : Text.isScalar c = true) :
    Spells (printCodePoint ascii c) [c] := by
  obtain ⟨high, single⟩ := Utf8.isScalar_iff.mp h
  by_cases letter : c ∈ [34, 92, 8, 9, 10, 12, 13]
  · simp only [List.mem_cons, List.not_mem_nil, or_false] at letter
    rcases letter with rfl | rfl | rfl | rfl | rfl | rfl | rfl
    all_goals exact spells_escape rfl (by decide)
  · simp only [List.mem_cons, List.not_mem_nil, or_false, not_or] at letter
    obtain ⟨quote, backslash, h8, h9, h10, h12, h13⟩ := letter
    simp only [printCodePoint, quote, backslash, h8, h9, h10, h12, h13, if_false]
    by_cases control : c < 32
    · rw [if_pos control]
      exact spells_unit (by omega) single
    rw [if_neg control]
    split
    · by_cases short : c < 0x10000
      · rw [if_pos short]
        exact spells_unit short single
      · rw [if_neg short]
        exact spells_pair (by omega) high
    · exact spells_plain control quote backslash

theorem spells_flatMap (ascii : Bool) {t : Text} (h : t.Encodable) : Spells (t.flatMap (printCodePoint ascii)) t := by
  induction t with
  | nil => exact spells_nil
  | cons c rest ih =>
    have parts : Text.isScalar c = true ∧ rest.all Text.isScalar = true := Bool.and_eq_true_iff.mp h
    exact (spells_printCodePoint ascii parts.1).append (ih parts.2)

theorem scans_text (ascii : Bool) {t : Text} (h : t.Encodable) : Scans (printText ascii t) [.text t] := by
  obtain ⟨pieces, run, joined⟩ := spells_flatMap ascii h
  intro before
  have opened : step (.between before) 34 = .string before [] := rfl
  have closed : step (.string before (pieces.reverse ++ [])) 34 = .between (.text t :: before) := by
    have whole := joined []
    rw [List.append_nil, joinPieces, List.append_nil] at whole
    simp only [step, List.append_nil, List.reverse_reverse, whole, if_true]
  rw [printText, List.cons_append, List.foldl_cons, opened, List.foldl_append, run, List.foldl_cons, closed]
  exact settled_between _

theorem scans_items {ascii : Bool} {items : List Json} (h : ∀ v ∈ items, Scans (print ascii v) (tokens v)) :
    Scans (printItems ascii items) (itemTokens items) := by
  induction items with
  | nil => exact scans_nil
  | cons v rest ih =>
    have first := h v List.mem_cons_self
    cases rest with
    | nil => exact first
    | cons w rest => exact first.mark rfl (ih fun u hu => h u (List.mem_cons_of_mem v hu))

theorem scans_member {ascii : Bool} {name : Text} {v : Json} (hn : name.Encodable)
    (hv : Scans (print ascii v) (tokens v)) :
    Scans (printText ascii name ++ 58 :: print ascii v) (.text name :: .colon :: tokens v) :=
  (scans_text ascii hn).mark rfl hv

theorem scans_members {ascii : Bool} {members : List (Text × Json)} (hn : ∀ m ∈ members, m.1.Encodable)
    (h : ∀ m ∈ members, Scans (print ascii m.2) (tokens m.2)) :
    Scans (printMembers ascii members) (memberTokens members) := by
  induction members with
  | nil => exact scans_nil
  | cons m rest ih =>
    obtain ⟨name, v⟩ := m
    have first := scans_member (hn _ List.mem_cons_self) (h _ List.mem_cons_self)
    cases rest with
    | nil => exact first
    | cons w rest =>
      exact first.mark rfl (ih (fun u hu => hn u (List.mem_cons_of_mem _ hu)) fun u hu => h u (List.mem_cons_of_mem _ hu))

/-- What stands between two marks. -/
theorem Scans.enclosed {p : Text} {ps : List Token} {first last : CodePoint} {opened closed : Token} (h : Scans p ps)
    (ho : markToken? first = some opened) (hc : markToken? last = some closed) :
    Scans (first :: p ++ [last]) (opened :: ps ++ [closed]) :=
  scans_nil.mark ho (h.mark hc scans_nil)

/-- The printed form of a value is scanned as its tokens. -/
theorem scans_print (ascii : Bool) {room : Nat} {v : Json} (h : Exact room v) : Scans (print ascii v) (tokens v) := by
  induction h with
  | null => exact scans_null
  | bool => exact scans_bool _
  | int _ => exact scans_int _
  | text encodable => exact scans_text ascii encodable
  | array _ ih => exact (scans_items ih).enclosed rfl rfl
  | object _ encodable _ ih => exact (scans_members encodable ih).enclosed rfl rfl

theorem lex_print (ascii : Bool) {room : Nat} {v : Json} (h : Exact room v) : lex (print ascii v) = tokens v :=
  (scans_print ascii h).lex_eq

end Strongbox.Json
