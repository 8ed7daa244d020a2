import Strongbox.Json.Parser
import Strongbox.Proofs.Except
import Strongbox.Proofs.Text.Utf8

/-!
# The two dialects

A document of the strict dialect is one of the lenient dialect, with the same value. This holds of its bytes
too: a text that the strict dialect accepts holds no zero and no byte order mark, so its encoding is found to be
UTF-8.
-/

namespace Strongbox.Json

structure Dialect.Within (d d' : Dialect) : Prop where
  surrogates : d.loneSurrogates = true → d'.loneSurrogates = true
  depth : d.depthLimit ≤ d'.depthLimit
  numbers : d'.numbersAsText = d.numbersAsText

theorem strict_within_lenient : Dialect.strict.Within .lenient where
  surrogates := fun _ => rfl
  depth := by decide
  numbers := rfl

section Within

variable {d d' : Dialect} (within : d.Within d')
include within

theorem allowed_within {t : Text} (h : (t.any Text.isSurrogate && !d.loneSurrogates) = false) :
    (t.any Text.isSurrogate && !d'.loneSurrogates) = false := by
  cases hs : t.any Text.isSurrogate with
  | false => rfl
  | true =>
    rw [hs, Bool.true_and, Bool.not_eq_false'] at h
    rw [within.surrogates h]
    rfl

theorem scalar?_within {token : Token} {v : Json} (h : scalar? d token = some (.ok v)) :
    scalar? d' token = some (.ok v) := by
  cases token with
  | text t =>
    simp only [scalar?] at h ⊢
    cases ha : (t.any Text.isSurrogate && !d.loneSurrogates) with
    | true => simp [ha] at h
    | false =>
      rw [ha] at h
      rw [allowed_within within ha]
      exact h
  | whole lexeme =>
    simp only [scalar?] at h ⊢
    rw [within.numbers]
    exact h
  | decimal lexeme =>
    simp only [scalar?] at h ⊢
    rw [within.numbers]
    exact h
  | _ => exact h

theorem placeScalar_within (token : Token) {stack : List Frame} {r : Reading}
    (h : (match scalar? d token with
      | some (.ok v) => .ok (place v stack)
      | some (.error e) => .error e
      | none => .error .malformed : Except ReadError Reading) = .ok r) :
    (match scalar? d' token with
      | some (.ok v) => .ok (place v stack)
      | some (.error e) => .error e
      | none => .error .malformed : Except ReadError Reading) = .ok r := by
  split at h
  · rename_i v hv
    rw [scalar?_within within hv]
    exact h
  · cases h
  · cases h

theorem beginValue_within {stack : List Frame} {token : Token} {r : Reading}
    (h : beginValue d stack token = .ok r) : beginValue d' stack token = .ok r := by
  unfold beginValue at h ⊢
  by_cases hd : stack.length > d.depthLimit
  · simp [hd] at h
  · have hd' : ¬ stack.length > d'.depthLimit := by
      have := within.depth
      omega
    rw [if_neg hd] at h
    rw [if_neg hd']
    cases token with
    | whole lexeme => exact placeScalar_within within (.whole lexeme) h
    | decimal lexeme => exact placeScalar_within within (.decimal lexeme) h
    | text t => exact placeScalar_within within (.text t) h
    | _ => exact h

theorem beginName_within {stack : List Frame} {members : List (Text × Json)} {token : Token} {r : Reading}
    (h : beginName d stack members token = .ok r) : beginName d' stack members token = .ok r := by
  cases token with
  | text t =>
    simp only [beginName] at h ⊢
    cases ha : (t.any Text.isSurrogate && !d.loneSurrogates) with
    | true => simp [ha] at h
    | false =>
      rw [ha] at h
      rw [allowed_within within ha]
      exact h
  | _ => exact h

theorem step_within {state r : Reading} {token : Token} (h : step d state token = .ok r) :
    step d' state token = .ok r := by
  cases state with
  | done v => exact h
  | value stack => exact beginValue_within within h
  | firstItem stack =>
    simp only [step] at h ⊢
    split at h
    · exact h
    · exact beginValue_within within h
  | firstName stack members =>
    simp only [step] at h ⊢
    split at h
    · exact h
    · exact beginName_within within h
  | name stack members => exact beginName_within within h
  | colon stack members name => exact h
  | next frame stack => exact h

theorem foldlM_step_within {tokens : List Token} {state r : Reading}
    (h : tokens.foldlM (step d) state = .ok r) : tokens.foldlM (step d') state = .ok r := by
  induction tokens generalizing state with
  | nil => exact h
  | cons token rest ih =>
    rw [List.foldlM_cons] at h ⊢
    cases hs : step d state token with
    | error e =>
      rw [hs] at h
      cases h
    | ok next =>
      rw [hs] at h
      rw [step_within within hs]
      exact ih h

/-- What one dialect reads, every dialect that it is within reads as the same value. -/
theorem parse_within {t : Text} {v : Json} (h : parse d t = .ok v) : parse d' t = .ok v := by
  unfold parse ofTokens at h ⊢
  cases hf : (lex t).foldlM (step d) (.value []) with
  | error e =>
    rw [hf] at h
    cases h
  | ok r =>
    rw [hf] at h
    rw [foldlM_step_within within hf]
    exact h

end Within

theorem step_invalid (d : Dialect) (state : Reading) : ∃ e, step d state .invalid = .error e := by
  have value : ∀ stack, ∃ e, beginValue d stack .invalid = .error e := by
    intro stack
    unfold beginValue
    split
    · exact ⟨_, rfl⟩
    · exact ⟨_, rfl⟩
  cases state with
  | value stack => exact value stack
  | firstItem stack => exact value _
  | next frame stack => cases frame <;> exact ⟨_, rfl⟩
  | _ => exact ⟨_, rfl⟩

/-- A text with an invalid token is no document. -/
theorem ofTokens_invalid (d : Dialect) {tokens : List Token} (h : .invalid ∈ tokens) (v : Json) :
    ofTokens d tokens ≠ .ok v := by
  have stops : ∀ state r, tokens.foldlM (step d) state ≠ .ok r := by
    induction tokens with
    | nil => cases h
    | cons token rest ih =>
      intro state r hr
      rw [List.foldlM_cons] at hr
      obtain ⟨next, hs, hr⟩ := bind_eq_ok.mp hr
      rcases List.mem_cons.mp h with rfl | h
      · obtain ⟨e, he⟩ := step_invalid d state
        rw [he] at hs
        cases hs
      · exact ih h next r hr
  intro hv
  obtain ⟨r, hr, _⟩ := bind_eq_ok.mp hv
  exact stops _ r hr

def Scanner.Sane : Scanner → Prop
  | .stuck tokens => .invalid ∈ tokens
  | _ => True

namespace Scanner

theorem sane_start (tokens : List Token) (c : CodePoint) : (start tokens c).Sane := by
  unfold start
  split
  · trivial
  split
  · trivial
  split
  · trivial
  split
  · trivial
  split
  · trivial
  · exact List.mem_cons_self

theorem sane_step {s : Scanner} (h : s.Sane) (c : CodePoint) : (s.step c).Sane := by
  cases s with
  | stuck tokens => exact h
  | between tokens => exact sane_start tokens c
  | number tokens lexeme =>
    simp only [step]
    split
    · trivial
    split
    · trivial
    · exact sane_start _ c
  | word tokens letters =>
    simp only [step]
    split
    · trivial
    · exact sane_start _ c
  | string tokens pieces =>
    simp only [step]
    split
    · trivial
    split
    · trivial
    split
    · exact List.mem_cons_self
    · trivial
  | escape tokens pieces =>
    simp only [step]
    split
    · trivial
    split
    · trivial
    · exact List.mem_cons_self
  | hexadecimal tokens pieces value count =>
    simp only [step]
    split
    · exact List.mem_cons_self
    split
    · trivial
    · trivial

theorem sane_foldl {s : Scanner} (h : s.Sane) (t : Text) : (t.foldl step s).Sane := by
  induction t generalizing s with
  | nil => exact h
  | cons c rest ih => exact ih (sane_step h c)

theorem foldl_stuck (tokens : List Token) (t : Text) : t.foldl step (.stuck tokens) = .stuck tokens := by
  induction t with
  | nil => rfl
  | cons c rest ih => exact ih

theorem step_zero {s : Scanner} (h : s.Sane) : ∃ tokens, s.step 0 = .stuck tokens ∧ .invalid ∈ tokens := by
  cases s with
  | stuck tokens => exact ⟨tokens, rfl, h⟩
  | between tokens => exact ⟨_, rfl, List.mem_cons_self⟩
  | number tokens lexeme =>
    have notPart : isNumberPart 0 = false := rfl
    have notLetter : isLetter 0 = false := rfl
    refine ⟨.invalid :: closeNumber tokens lexeme, ?_, List.mem_cons_self⟩
    simp only [step, notPart, notLetter, Bool.and_false, Bool.false_eq_true, if_false]
    rfl
  | word tokens letters => exact ⟨_, rfl, List.mem_cons_self⟩
  | string tokens pieces => exact ⟨_, rfl, List.mem_cons_self⟩
  | escape tokens pieces => exact ⟨_, rfl, List.mem_cons_self⟩
  | hexadecimal tokens pieces value count => exact ⟨_, rfl, List.mem_cons_self⟩

end Scanner

theorem parse_zero (d : Dialect) {t : Text} (h : 0 ∈ t) (v : Json) : parse d t ≠ .ok v := by
  obtain ⟨before, after, rfl⟩ := List.append_of_mem h
  refine ofTokens_invalid d ?_ v
  have start : (Scanner.between []).Sane := trivial
  have sane := Scanner.sane_foldl start before
  obtain ⟨tokens, hs, hi⟩ := Scanner.step_zero sane
  unfold lex
  rw [List.foldl_append, List.foldl_cons, hs, Scanner.foldl_stuck]
  exact List.mem_reverse.mpr hi

theorem parse_mark (d : Dialect) (t : Text) (v : Json) : parse d (0xFEFF :: t) ≠ .ok v := by
  refine ofTokens_invalid d ?_ v
  have stuck : Scanner.step (.between []) 0xFEFF = .stuck [.invalid] := rfl
  unfold lex
  rw [List.foldl_cons, stuck, Scanner.foldl_stuck]
  exact List.mem_cons_self

/-- Bytes none of which is zero are taken for UTF-8, if they have no byte order mark. -/
theorem decodeUnmarked?_of_nonzero {bytes : Bytes} (h : 0 ∉ bytes) :
    decodeUnmarked? bytes = Utf8.decodeWithSurrogates? bytes := by
  unfold decodeUnmarked?
  split
  · simp only [List.mem_cons, not_or] at h
    obtain ⟨ha, hb, _⟩ := h
    rw [if_neg (Ne.symm ha), if_neg (Ne.symm hb)]
  · simp only [List.mem_cons, not_or] at h
    obtain ⟨ha, hb, _⟩ := h
    rw [if_neg (Ne.symm ha), if_neg (Ne.symm hb)]
  · rfl

/-- A document of the strict dialect has no byte order mark. -/
theorem find?_byteOrderMarks {bytes : Bytes} {t : Text} {d : Dialect} {v : Json}
    (hd : Utf8.decode? bytes = some t) (hp : parse d t = .ok v) (nonzero : 0 ∉ bytes) :
    byteOrderMarks.find? (fun (mark, _) => mark.isPrefixOf bytes) = none := by
  refine List.find?_eq_none.mpr fun ⟨mark, decode⟩ hm hprefix => ?_
  obtain ⟨rest, rfl⟩ := List.isPrefixOf_iff_prefix.mp hprefix
  simp only [byteOrderMarks, List.mem_cons, Prod.mk.injEq, List.not_mem_nil, or_false] at hm
  -- the long marks hold a zero, those of 16 bits begin no character, and the last one is read as a character
  rcases hm with ⟨rfl, _⟩ | ⟨rfl, _⟩ | ⟨rfl, _⟩ | ⟨rfl, _⟩ | ⟨rfl, _⟩
  · simp at nonzero
  · simp at nonzero
  · rw [List.cons_append, Utf8.decode?_cons_broken rfl] at hd
    cases hd
  · rw [List.cons_append, Utf8.decode?_cons_broken rfl] at hd
    cases hd
  · obtain ⟨rest, rfl⟩ := Utf8.decode?_mark hd
    exact parse_mark d rest v hp

theorem decodeDetected?_of_strict {bytes : Bytes} {t : Text} {d : Dialect} {v : Json}
    (hd : Utf8.decode? bytes = some t) (hp : parse d t = .ok v) : decodeDetected? bytes = some t := by
  have nonzero : 0 ∉ bytes := fun hz => parse_zero d (Utf8.zero_mem hd hz) v hp
  have unmarked := find?_byteOrderMarks hd hp nonzero
  unfold decodeDetected?
  rw [unmarked, decodeUnmarked?_of_nonzero nonzero]
  exact Utf8.decodeWithSurrogates?_of_decode? hd

/-- A document of the strict dialect is one of the lenient dialect, with the same value. -/
theorem parseLenient_of_parseStrict {bytes : Bytes} {v : Json} (h : parseStrict bytes = .ok v) :
    parseLenient bytes = .ok v := by
  unfold parseStrict at h
  unfold parseLenient
  split at h
  · cases h
  · rename_i t hd
    rw [decodeDetected?_of_strict hd h]
    exact parse_within strict_within_lenient h

end Strongbox.Json
