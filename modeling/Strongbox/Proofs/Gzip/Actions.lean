import Strongbox.Gzip.Member
import Strongbox.Proofs.Except
import Strongbox.Proofs.Gzip.Bits

/-!
# What an action of the decoder depends on

Every action takes its bits from the front of what is left and looks at no others, adds to the output, and does
under a limit what it does without one, until there is no room. These facts hold of the smallest actions and are
kept when actions are put together, so they hold of the decoding of a whole member.
-/

namespace Strongbox.Deflate

variable {x : Decode α} {f : α → Decode β} {a : α} {b : β} {d d' d'' : Decoder} {e : Stop}

theorem bind_eq (x : Decode α) (f : α → Decode β) (d : Decoder) : (x >>= f) d = x d >>= fun p => f p.1 p.2 := rfl

theorem bind_ok (h : x d = .ok (a, d')) : (x >>= f) d = f a d' := by
  rw [bind_eq, h]
  rfl

theorem bind_error (h : x d = .error e) : (x >>= f) d = .error e := by
  rw [bind_eq, h]
  rfl

theorem ok_of_bind (h : (x >>= f) d = .ok (b, d'')) : ∃ a d', x d = .ok (a, d') ∧ f a d' = .ok (b, d'') := by
  rw [bind_eq] at h
  obtain ⟨⟨a, d'⟩, hx, hf⟩ := bind_eq_ok.mp h
  exact ⟨a, d', hx, hf⟩

/-- The decoder at another place of some input: so many bits in, with these bits ahead. -/
def Decoder.placed (d : Decoder) (taken : Nat) (rest : List Bool) : Decoder := { d with bits := ⟨rest, taken⟩ }

def Decoder.within (d : Decoder) (limit : Option Nat) : Decoder := { d with limit }

def Decoder.Whole (d : Decoder) : Prop := (d.bits.taken + d.bits.rest.length) % 8 = 0

/-- The action takes these bits. It does so wherever they are, if they begin as far into a byte as here, and
whatever comes after them. -/
structure Takes (x : Decode α) (d : Decoder) (used : List Bool) (a : α) (d' : Decoder) : Prop where
  rest : d.bits.rest = used ++ d'.bits.rest
  taken : d'.bits.taken = d.bits.taken + used.length
  elsewhere : ∀ taken rest, taken % 8 = d.bits.taken % 8 →
    x (d.placed taken (used ++ rest)) = .ok (a, d'.placed (taken + used.length) rest)

theorem Takes.whole {used : List Bool} (h : Takes x d used a d') (whole : d.Whole) : d'.Whole := by
  have counted : (d.bits.taken + d.bits.rest.length) % 8 = 0 := whole
  rw [h.rest, List.length_append, ← Nat.add_assoc, ← h.taken] at counted
  exact counted

structure Regular (x : Decode α) : Prop where
  takes : ∀ {d a d'}, d.Whole → x d = .ok (a, d') → ∃ used, Takes x d used a d'
  /-- The limit stays, and the output only grows. -/
  grows : ∀ {d a d'}, x d = .ok (a, d') → d'.limit = d.limit ∧ d.out.size ≤ d'.out.size
  /-- Under a limit the action does the same, or is stopped. Then it would have written up to the limit at least. -/
  limited : ∀ (d : Decoder) (n : Nat),
    x (d.within (some n)) = (x (d.within none)).map (fun p => (p.1, p.2.within (some n))) ∨
    x (d.within (some n)) = .error .full ∧ ∀ {a d'}, x (d.within none) = .ok (a, d') → n ≤ d'.out.size

namespace Regular

theorem bind (hx : Regular x) (hf : ∀ a, Regular (f a)) : Regular (x >>= f) where
  takes {d b d''} whole h := by
    obtain ⟨a, d', hxd, hfd⟩ := ok_of_bind h
    obtain ⟨used, first⟩ := hx.takes whole hxd
    obtain ⟨more, second⟩ := (hf a).takes (first.whole whole) hfd
    refine ⟨used ++ more, ?_, ?_, ?_⟩
    · rw [first.rest, second.rest, List.append_assoc]
    · rw [second.taken, first.taken, List.length_append, Nat.add_assoc]
    · intro taken rest same
      have place : (taken + used.length) % 8 = d'.bits.taken % 8 := by
        rw [first.taken]
        omega
      rw [List.append_assoc, bind_ok (first.elsewhere taken (more ++ rest) same)]
      have rest_placed := second.elsewhere (taken + used.length) rest place
      rwa [List.length_append, ← Nat.add_assoc]
  grows {d b d''} h := by
    obtain ⟨a, d', hxd, hfd⟩ := ok_of_bind h
    obtain ⟨limit, size⟩ := hx.grows hxd
    obtain ⟨limit', size'⟩ := (hf a).grows hfd
    exact ⟨limit'.trans limit, Nat.le_trans size size'⟩
  limited d n := by
    cases free : x (d.within none) with
    | error e =>
      -- without a limit the whole fails too, so there is no output to compare with the limit
      have failed : ∀ {b d''}, (x >>= f) (d.within none) = .ok (b, d'') → n ≤ d''.out.size := by
        intro b d'' h
        rw [bind_error free] at h
        cases h
      rcases hx.limited d n with same | ⟨full, _⟩
      · rw [free] at same
        rw [bind_error free, bind_error same]
        exact .inl rfl
      · exact .inr ⟨bind_error full, failed⟩
    | ok p =>
      obtain ⟨a, d'⟩ := p
      have unlimited : d'.within none = d' := by
        obtain ⟨bits, out, limit⟩ := d'
        cases (hx.grows free).1
        rfl
      rw [bind_ok free]
      rcases hx.limited d n with same | ⟨full, most⟩
      · rw [free] at same
        rw [bind_ok same]
        have rest := (hf a).limited d' n
        rwa [unlimited] at rest
      · -- stopped already; what comes after the first action only adds to its output
        refine .inr ⟨bind_error full, ?_⟩
        intro b d'' h
        exact Nat.le_trans (most free) ((hf a).grows h).2

/-- An action that has only to do with the input. -/
theorem of_input (takes : ∀ {d a d'}, d.Whole → x d = .ok (a, d') → ∃ used, Takes x d used a d')
    (input : ∀ d limit, x (d.within limit) = (x d).map fun p => (p.1, p.2.within limit))
    (kept : ∀ {d a d'}, x d = .ok (a, d') → d'.limit = d.limit ∧ d'.out = d.out) : Regular x where
  takes := takes
  grows h := ⟨(kept h).1, Nat.le_of_eq (congrArg Array.size (kept h).2.symm)⟩
  limited d n := by
    rw [input d (some n), input d none]
    cases x d with
    | error e => exact .inl rfl
    | ok p => exact .inl rfl

/-- An action that has only to do with the output. -/
theorem of_output (output : ∀ d taken rest, x (d.placed taken rest) = (x d).map fun p => (p.1, p.2.placed taken rest))
    (kept : ∀ {d a d'}, x d = .ok (a, d') → d'.bits = d.bits)
    (grows : ∀ {d a d'}, x d = .ok (a, d') → d'.limit = d.limit ∧ d.out.size ≤ d'.out.size)
    (limited : ∀ (d : Decoder) (n : Nat),
      x (d.within (some n)) = (x (d.within none)).map (fun p => (p.1, p.2.within (some n))) ∨
      x (d.within (some n)) = .error .full ∧ ∀ {a d'}, x (d.within none) = .ok (a, d') → n ≤ d'.out.size) :
    Regular x where
  takes {d a d'} _ h := by
    refine ⟨[], by rw [kept h, List.nil_append], by rw [kept h, List.length_nil, Nat.add_zero], ?_⟩
    intro taken rest _
    rw [List.nil_append, output, h]
    rfl
  grows := grows
  limited := limited

end Regular

theorem regular_pure (a : α) : Regular (pure a : Decode α) := by
  refine .of_output (fun _ _ _ => rfl) ?_ ?_ (fun _ _ => .inl rfl)
  · rintro d b d' ⟨⟩
    rfl
  · rintro d b d' ⟨⟩
    exact ⟨rfl, Nat.le_refl _⟩

theorem regular_corrupt : Regular (corrupt : Decode α) :=
  .of_output (fun _ _ _ => rfl) nofun nofun fun _ _ => .inl rfl

theorem regular_exhausted : Regular (exhausted : Decode α) :=
  .of_output (fun _ _ _ => rfl) nofun nofun fun _ _ => .inl rfl

theorem regular_require (condition : Bool) : Regular (require condition) := by
  cases condition with
  | true => exact regular_pure ()
  | false => exact regular_corrupt

theorem regular_accept (found : Option α) : Regular (accept found) := by
  cases found with
  | none => exact regular_corrupt
  | some a => exact regular_pure a

theorem takeBits_ok {n v : Nat} (h : takeBits n d = .ok (v, d')) : ∃ used, used.length = n ∧ v = Bits.value used ∧
    d.bits.rest = used ++ d'.bits.rest ∧ d' = d.placed (d.bits.taken + n) d'.bits.rest := by
  cases taken : d.bits.take? n with
  | none => simp [takeBits, taken] at h
  | some p =>
    obtain ⟨w, bits⟩ := p
    simp only [takeBits, taken] at h
    cases h
    obtain ⟨used, length, value, rest, place⟩ := Bits.take?_eq_some taken
    refine ⟨used, length, value, rest, ?_⟩
    obtain ⟨bits', taken'⟩ := bits
    cases place
    rfl

theorem takeBits_placed (d : Decoder) (taken : Nat) (used rest : List Bool) :
    takeBits used.length (d.placed taken (used ++ rest)) =
      .ok (Bits.value used, d.placed (taken + used.length) rest) := by
  have found : (d.placed taken (used ++ rest)).bits.take? used.length =
      some (Bits.value used, ⟨rest, taken + used.length⟩) := Bits.take?_append used rest taken
  simp only [takeBits, found]
  rfl

theorem regular_takeBits (n : Nat) : Regular (takeBits n) := by
  refine .of_input ?_ ?_ ?_
  · intro d v d' _ h
    obtain ⟨used, rfl, rfl, rest, place⟩ := takeBits_ok h
    refine ⟨used, rest, by rw [place]; rfl, fun taken more _ => ?_⟩
    rw [place]
    exact takeBits_placed d taken used more
  · intro d limit
    have bits : (d.within limit).bits = d.bits := rfl
    rw [takeBits, takeBits, bits]
    cases d.bits.take? n <;> rfl
  · intro d v d' h
    obtain ⟨_, _, _, _, place⟩ := takeBits_ok h
    rw [place]
    exact ⟨rfl, rfl⟩

def Padding (taken : Nat) (padding : List Bool) : Prop := padding.length = (8 - taken % 8) % 8

theorem alignToByte_ok (whole : d.Whole) (h : alignToByte d = .ok ((), d')) :
    ∃ padding, Padding d.bits.taken padding ∧ d.bits.rest = padding ++ d'.bits.rest ∧
      d' = d.placed (d.bits.taken + padding.length) d'.bits.rest := by
  cases h
  have counted : (d.bits.taken + d.bits.rest.length) % 8 = 0 := whole
  have enough : (8 - d.bits.taken % 8) % 8 ≤ d.bits.rest.length := by omega
  have skipped : (d.bits.rest.take ((8 - d.bits.taken % 8) % 8)).length = (8 - d.bits.taken % 8) % 8 := by
    rw [List.length_take, Nat.min_eq_left enough]
  refine ⟨_, skipped, (List.take_append_drop _ _).symm, ?_⟩
  rw [skipped]
  rfl

theorem alignToByte_placed {taken : Nat} {padding : List Bool} (aligned : Padding taken padding) (d : Decoder)
    (rest : List Bool) :
    alignToByte (d.placed taken (padding ++ rest)) = .ok ((), d.placed (taken + padding.length) rest) := by
  have skipped : padding.length = (8 - taken % 8) % 8 := aligned
  have left : (padding ++ rest).drop padding.length = rest := List.drop_left
  rw [skipped] at left ⊢
  exact congrArg (fun rest => Except.ok ((), d.placed (taken + (8 - taken % 8) % 8) rest)) left

theorem regular_alignToByte : Regular alignToByte := by
  refine .of_input ?_ (fun _ _ => rfl) ?_
  · intro d a d' whole h
    obtain ⟨padding, aligned, rest, place⟩ := alignToByte_ok whole h
    refine ⟨padding, rest, by rw [place]; rfl, fun taken more same => ?_⟩
    have aligned' : Padding taken padding := aligned.trans (by rw [same])
    rw [place]
    exact alignToByte_placed aligned' d more
  · rintro d a d' ⟨⟩
    exact ⟨rfl, rfl⟩

theorem needRoom_of_room (room : d.hasRoom = true) : needRoom d = .ok ((), d) := if_pos room

theorem needRoom_of_full (full : d.hasRoom = false) : needRoom d = .error .full :=
  if_neg (Bool.eq_false_iff.mp full)

theorem needRoom_ok (h : needRoom d = .ok ((), d')) : d' = d := by
  cases room : d.hasRoom with
  | true =>
    rw [needRoom_of_room room] at h
    cases h
    rfl
  | false =>
    rw [needRoom_of_full room] at h
    cases h

theorem regular_needRoom : Regular needRoom := by
  refine .of_output ?_ (fun h => by rw [needRoom_ok h]) ?_ ?_
  · intro d taken rest
    cases room : d.hasRoom with
    | true =>
      have placed : (d.placed taken rest).hasRoom = true := room
      rw [needRoom_of_room placed, needRoom_of_room room]
      rfl
    | false =>
      have placed : (d.placed taken rest).hasRoom = false := room
      rw [needRoom_of_full placed, needRoom_of_full room]
      rfl
  · intro d a d' h
    rw [needRoom_ok h]
    exact ⟨rfl, Nat.le_refl _⟩
  · intro d n
    by_cases room : d.out.size < n
    · exact .inl (needRoom_of_room (decide_eq_true room))
    · refine .inr ⟨needRoom_of_full (decide_eq_false room), ?_⟩
      intro a d' h
      rw [needRoom_ok h]
      exact Nat.le_of_not_lt room

/-- An action that looks at the output first. -/
theorem Regular.of_seen {g : Array UInt8 → Decode α} (h : ∀ out, Regular (g out)) : Regular fun d => g d.out d where
  takes {d} _ _ whole hd := by
    obtain ⟨used, takes⟩ := (h d.out).takes whole hd
    exact ⟨used, takes.rest, takes.taken, takes.elsewhere⟩
  grows {d} _ _ hd := (h d.out).grows hd
  limited d n := (h d.out).limited d n

theorem regular_requireDistance (distance : Nat) : Regular (requireDistance distance) := by
  have seen : requireDistance distance = fun d => require (decide (distance ≤ d.out.size)) d := by
    funext d
    by_cases h : distance ≤ d.out.size
    · rw [decide_eq_true h]
      exact if_pos h
    · rw [decide_eq_false h]
      exact if_neg h
  rw [seen]
  exact Regular.of_seen (g := fun out => require (decide (distance ≤ out.size))) fun _ => regular_require _

theorem regular_requireOutput (test : Array UInt8 → Bool) : Regular (Gzip.takeTrailer.requireOutput test) := by
  have seen : Gzip.takeTrailer.requireOutput test = fun d => require (test d.out) d := by
    funext d
    rw [Gzip.takeTrailer.requireOutput]
    cases test d.out <;> rfl
  rw [seen]
  exact Regular.of_seen (g := fun out => require (test out)) fun _ => regular_require _

def put (b : UInt8) : Decode Unit := fun d => .ok ((), { d with out := d.out.push b })

theorem regular_put (b : UInt8) : Regular (put b) := by
  refine .of_output (fun _ _ _ => rfl) ?_ ?_ (fun _ _ => .inl rfl)
  · rintro d a d' ⟨⟩
    rfl
  · rintro d a d' ⟨⟩
    refine ⟨rfl, ?_⟩
    rw [Array.size_push]
    exact Nat.le_succ _

theorem write_eq (b : UInt8) : write b = needRoom >>= fun _ => put b := by
  funext d
  cases room : d.hasRoom with
  | true =>
    rw [bind_ok (needRoom_of_room room)]
    exact if_pos room
  | false =>
    rw [bind_error (needRoom_of_full room)]
    exact if_neg (Bool.eq_false_iff.mp room)

theorem regular_write (b : UInt8) : Regular (write b) := by
  rw [write_eq]
  exact regular_needRoom.bind fun _ => regular_put b

theorem regular_repeatByte (distance : Nat) : Regular (repeatByte distance) :=
  Regular.of_seen (g := fun out => write (out.getD (out.size - distance) 0)) fun _ => regular_write _

/-- A code word is read off its own bits, of which it has one at least. -/
theorem decodeFrom_symbol {bits rest : Bits} {code first s : Nat} {symbols counts : List Nat}
    (h : Huffman.decodeFrom bits code first symbols counts = .symbol s rest) :
    ∃ used, used ≠ [] ∧ bits.rest = used ++ rest.rest ∧ rest.taken = bits.taken + used.length ∧
      ∀ taken more, Huffman.decodeFrom ⟨used ++ more, taken⟩ code first symbols counts =
        .symbol s ⟨more, taken + used.length⟩ := by
  induction counts generalizing bits code first symbols with
  | nil => cases h
  | cons count counts ih =>
    obtain ⟨ahead, taken⟩ := bits
    cases ahead with
    | nil => simp [Huffman.decodeFrom, Bits.next?] at h
    | cons b ahead =>
      simp only [Huffman.decodeFrom, Bits.next?] at h ⊢
      by_cases last : 2 * code + b.toNat < first + count
      · simp only [last, if_true] at h ⊢
        cases found : symbols.drop (2 * code + b.toNat - first) with
        | nil => simp [found] at h
        | cons t _ =>
          simp only [found] at h
          cases h
          refine ⟨[b], List.cons_ne_nil b [], rfl, rfl, fun taken more => ?_⟩
          simp only [List.cons_append, List.nil_append, last, if_true, found, List.length_singleton]
      · simp only [last, if_false] at h ⊢
        obtain ⟨used, _, hrest, htaken, elsewhere⟩ := ih h
        refine ⟨b :: used, List.cons_ne_nil b used, congrArg (b :: ·) hrest, ?_, fun taken more => ?_⟩
        · have counted : rest.taken = taken + 1 + used.length := htaken
          rw [counted, List.length_cons, Nat.add_right_comm taken 1, Nat.add_assoc]
        · simp only [List.cons_append, last, if_false, List.length_cons]
          rw [elsewhere (taken + 1) more, Nat.add_right_comm taken 1, Nat.add_assoc]

theorem takeSymbol_ok {h : Huffman} {s : Nat} (hs : takeSymbol h d = .ok (s, d')) :
    ∃ bits, h.decode d.bits = .symbol s bits ∧ d' = { d with bits } := by
  cases word : h.decode d.bits with
  | symbol t bits =>
    simp only [takeSymbol, word] at hs
    cases hs
    exact ⟨bits, rfl, rfl⟩
  | invalid => simp [takeSymbol, word] at hs
  | exhausted => simp [takeSymbol, word] at hs

theorem regular_takeSymbol (h : Huffman) : Regular (takeSymbol h) := by
  refine .of_input ?_ ?_ ?_
  · intro d s d' _ hs
    obtain ⟨bits, word, rfl⟩ := takeSymbol_ok hs
    obtain ⟨used, _, rest, taken, elsewhere⟩ := decodeFrom_symbol word
    refine ⟨used, rest, taken, fun taken more _ => ?_⟩
    have found : h.decode (d.placed taken (used ++ more)).bits = .symbol s ⟨more, taken + used.length⟩ :=
      elsewhere taken more
    simp only [takeSymbol, found]
    rfl
  · intro d limit
    have bits : (d.within limit).bits = d.bits := rfl
    rw [takeSymbol, takeSymbol, bits]
    cases h.decode d.bits <;> rfl
  · intro d s d' hs
    obtain ⟨bits, _, rfl⟩ := takeSymbol_ok hs
    exact ⟨rfl, rfl⟩

theorem regular_copyBytes (n : Nat) : Regular (copyBytes n) := by
  induction n with
  | zero => exact regular_pure ()
  | succ n ih =>
    have copy : Regular copyByte := regular_needRoom.bind fun _ => (regular_takeBits 8).bind fun _ => regular_write _
    exact copy.bind fun _ => ih

theorem regular_repeatBytes (distance n : Nat) : Regular (repeatBytes distance n) := by
  induction n with
  | zero => exact regular_pure ()
  | succ n ih => exact (regular_repeatByte distance).bind fun _ => ih

theorem regular_takeRange (range : Option Range) : Regular (takeRange range) := by
  cases range with
  | none => exact regular_corrupt
  | some r => exact (regular_takeBits r.extra).bind fun _ => regular_pure _

theorem regular_takeMatch (c : Codes) (symbol : Nat) : Regular (takeMatch c symbol) :=
  (regular_takeRange _).bind fun _ => (regular_takeSymbol _).bind fun _ => (regular_takeRange _).bind fun _ =>
    regular_needRoom.bind fun _ => (regular_requireDistance _).bind fun _ => regular_repeatBytes _ _

theorem regular_symbols (c : Codes) (fuel : Nat) : Regular (symbols c fuel) := by
  induction fuel with
  | zero => exact regular_exhausted
  | succ fuel ih =>
    refine (regular_takeSymbol c.literals).bind fun symbol => ?_
    split
    · exact regular_pure ()
    split
    · exact (regular_write _).bind fun _ => ih
    · exact (regular_takeMatch c symbol).bind fun _ => ih

theorem regular_takeTriples (n : Nat) : Regular (takeTriples n) := by
  induction n with
  | zero => exact regular_pure []
  | succ n ih => exact (regular_takeBits 3).bind fun _ => ih.bind fun _ => regular_pure _

theorem regular_takeRepeat (symbol : Nat) (last : Option Nat) : Regular (takeRepeat symbol last) := by
  unfold takeRepeat
  split
  · exact regular_pure _
  split
  · refine (regular_takeBits 2).bind fun _ => ?_
    cases last with
    | none => exact regular_corrupt
    | some length => exact regular_pure _
  split
  · exact (regular_takeBits 3).bind fun _ => regular_pure _
  · exact (regular_takeBits 7).bind fun _ => regular_pure _

theorem regular_takeLengths (h : Huffman) (total fuel : Nat) (read : List Nat) :
    Regular (takeLengths h total fuel read) := by
  induction fuel generalizing read with
  | zero => exact regular_exhausted
  | succ fuel ih =>
    unfold takeLengths
    split
    · exact regular_pure _
    · exact (regular_takeSymbol h).bind fun _ => (regular_takeRepeat _ _).bind fun _ => (regular_require _).bind fun _ =>
        ih _

theorem regular_takeCodes : Regular takeCodes :=
  (regular_takeBits 5).bind fun _ => (regular_takeBits 5).bind fun _ => (regular_takeBits 4).bind fun _ =>
    (regular_require _).bind fun _ => (regular_takeTriples _).bind fun _ => (regular_accept _).bind fun _ =>
      (regular_takeLengths _ _ _ _).bind fun _ => (regular_require _).bind fun _ => (regular_accept _).bind fun _ =>
        (regular_accept _).bind fun _ => regular_pure _

theorem regular_storedBlock : Regular storedBlock :=
  regular_alignToByte.bind fun _ => (regular_takeBits 32).bind fun _ => (regular_require _).bind fun _ =>
    regular_copyBytes _

theorem regular_block (fuel type : Nat) : Regular (block fuel type) := by
  unfold block
  split
  · exact regular_storedBlock
  split
  · exact regular_symbols _ _
  split
  · exact regular_takeCodes.bind fun codes => regular_symbols codes fuel
  · exact regular_corrupt

theorem regular_blocks (fuel : Nat) : Regular (blocks fuel) := by
  induction fuel with
  | zero => exact regular_exhausted
  | succ fuel ih =>
    refine (regular_takeBits 3).bind fun header => (regular_block _ _).bind fun _ => ?_
    split
    · exact regular_pure ()
    · exact ih

end Strongbox.Deflate

namespace Strongbox.Gzip

open Deflate

theorem regular_takeBytes (n : Nat) : Regular (takeBytes n) := by
  induction n with
  | zero => exact regular_pure []
  | succ n ih => exact (regular_takeBits 8).bind fun _ => ih.bind fun _ => regular_pure _

theorem regular_takeZeroEnded (fuel : Nat) : Regular (takeZeroEnded fuel) := by
  induction fuel with
  | zero => exact regular_exhausted
  | succ fuel ih =>
    refine (regular_takeBits 8).bind fun b => ?_
    split
    · exact regular_pure _
    · exact ih.bind fun _ => regular_pure _

theorem regular_optionalField (present : Bool) {field : Decode Bytes} (h : Regular field) :
    Regular (optionalField present field) := by
  cases present with
  | true => exact h
  | false => exact regular_pure []

theorem regular_takeExtra : Regular takeExtra :=
  (regular_takeBytes 2).bind fun _ => (regular_takeBytes _).bind fun _ => regular_pure _

theorem regular_takeHeader (fuel : Nat) : Regular (takeHeader fuel) := by
  refine (regular_takeBytes 2).bind fun _ => (regular_require _).bind fun _ => (regular_takeBytes 2).bind fun _ =>
    (regular_require _).bind fun _ => (regular_takeBytes 6).bind fun _ =>
      (regular_optionalField _ regular_takeExtra).bind fun _ =>
        (regular_optionalField _ (regular_takeZeroEnded fuel)).bind fun _ =>
          (regular_optionalField _ (regular_takeZeroEnded fuel)).bind fun _ => ?_
  split
  · exact (regular_takeBits 16).bind fun _ => regular_require _
  · exact regular_pure ()

theorem regular_takeTrailer : Regular takeTrailer :=
  regular_alignToByte.bind fun _ => (regular_takeBits 32).bind fun _ => (regular_requireOutput _).bind fun _ =>
    (regular_takeBits 32).bind fun _ => regular_requireOutput _

theorem regular_takeMember (fuel : Nat) : Regular (takeMember fuel) :=
  (regular_takeHeader fuel).bind fun _ => (regular_blocks fuel).bind fun _ => regular_takeTrailer

end Strongbox.Gzip
