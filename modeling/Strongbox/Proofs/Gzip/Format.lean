import Strongbox.Proofs.Gzip.Fuel

/-!
# The format of compressed files

A member is a header, compressed blocks and a trailer, laid out in bytes; a file is one member or more, and
nothing after the last one. The decoder reads exactly the members: it accepts each, whatever comes after it, and
what it accepts begins with one.
-/

namespace Strongbox.Gzip

open Deflate

variable {x : Decode α} {f : α → Decode β} {a : α} {d d' : Decoder}

def ZeroEnded (field : Bytes) : Prop := ∃ text, 0 ∉ text ∧ field = text ++ [0]

def Measured (field : Bytes) : Prop := ∃ data, data.length < 65536 ∧ field = littleEndian 2 data.length ++ data

def Announced (flag : Bool) (form : Bytes → Prop) (field : Bytes) : Prop :=
  if flag then form field else field = []

structure Header where
  flags : UInt8
  times : Bytes
  extra : Bytes
  name : Bytes
  comment : Bytes
  known_flags : flags.toNat < 32
  length_times : times.length = 6
  extra_form : Announced (hasFlag flags.toNat 2) Measured extra
  name_form : Announced (hasFlag flags.toNat 3) ZeroEnded name
  comment_form : Announced (hasFlag flags.toNat 4) ZeroEnded comment

namespace Header

def covered (h : Header) : Bytes := [0x1F, 0x8B] ++ [8, h.flags] ++ h.times ++ h.extra ++ h.name ++ h.comment

def checksum (h : Header) : Bytes :=
  if hasFlag h.flags.toNat 1 then littleEndian 2 ((Crc32.ofBytes h.covered).toNat % 65536) else []

def bytes (h : Header) : Bytes := h.covered ++ h.checksum

theorem bytes_eq (h : Header) : h.bytes =
    [0x1F, 0x8B] ++ ([8, h.flags] ++ (h.times ++ (h.extra ++ (h.name ++ (h.comment ++ h.checksum))))) := by
  simp only [bytes, covered, List.append_assoc]

end Header

/-- Blocks that decode to the contents, filled up to a whole byte. -/
def Stream (stream contents : Bytes) : Prop :=
  ∃ fuel d, blocks fuel ⟨.ofBytes stream, #[], none⟩ = .ok ((), d) ∧ d.out.toList = contents ∧ d.bits.rest.length < 8

def trailer (contents : Bytes) : Bytes :=
  littleEndian 4 (Crc32.ofBytes contents).toNat ++ littleEndian 4 (contents.length % 0x100000000)

def Member (member contents : Bytes) : Prop :=
  ∃ (header : Header) (stream : Bytes), Stream stream contents ∧ member = header.bytes ++ stream ++ trailer contents

/-- One member or more: the contents are those of all members. -/
inductive File : Bytes → Bytes → Prop where
  | last {member contents} : Member member contents → File member contents
  | cons {member contents rest more} :
      Member member contents → File rest more → File (member ++ rest) (contents ++ more)

/-- Bytes of some form, which are taken as they are. -/
def Field (form : Bytes → Prop) (bytes taken : Bytes) : Prop := taken = bytes ∧ form bytes

structure Reads (form : Bytes → α → Prop) (x : Decode α) : Prop where
  sound : ∀ {d a d'}, x d = .ok (a, d') → ∃ bytes, form bytes a ∧ d.bits.rest = Bits.ofOctets bytes ++ d'.bits.rest ∧
    d' = d.placed (d.bits.taken + 8 * bytes.length) d'.bits.rest
  complete : ∀ {bytes a}, form bytes a → ∀ (d : Decoder) taken rest,
    x (d.placed taken (Bits.ofOctets bytes ++ rest)) = .ok (a, d.placed (taken + 8 * bytes.length) rest)

namespace Reads

variable {form form' : Bytes → α → Prop} {next : α → Bytes → β → Prop}

theorem congr (h : Reads form x) (same : ∀ bytes a, form bytes a ↔ form' bytes a) : Reads form' x := by
  have equal : form = form' := funext fun bytes => funext fun a => propext (same bytes a)
  rwa [← equal]

theorem pure (a : α) : Reads (fun bytes b => bytes = [] ∧ b = a) (pure a : Decode α) where
  sound {d b d'} h := by
    cases h
    exact ⟨[], ⟨rfl, rfl⟩, rfl, rfl⟩
  complete {bytes b} h d taken rest := by
    obtain ⟨rfl, rfl⟩ := h
    rfl

theorem bind (hx : Reads form x) (hf : ∀ a, Reads (next a) (f a)) :
    Reads (fun bytes b => ∃ front back a, bytes = front ++ back ∧ form front a ∧ next a back b) (x >>= f) where
  sound {d b d''} h := by
    obtain ⟨a, d', hxd, hfd⟩ := ok_of_bind h
    obtain ⟨front, isFront, rest, place⟩ := hx.sound hxd
    obtain ⟨back, isBack, rest', place'⟩ := (hf a).sound hfd
    refine ⟨front ++ back, ⟨front, back, a, rfl, isFront, isBack⟩, ?_, ?_⟩
    · rw [rest, rest', Bits.ofOctets_append, List.append_assoc]
    · rw [place', place, List.length_append, Nat.mul_add, ← Nat.add_assoc]
      rfl
  complete {bytes b} h d taken rest := by
    obtain ⟨front, back, a, rfl, isFront, isBack⟩ := h
    rw [Bits.ofOctets_append, List.append_assoc, bind_ok (hx.complete isFront d taken _),
      (hf a).complete isBack, List.length_append, Nat.mul_add, ← Nat.add_assoc]

theorem fieldThen {field : Bytes → Prop} {x : Decode Bytes} {f : Bytes → Decode β} {next : Bytes → Bytes → β → Prop}
    (hx : Reads (Field field) x) (hf : ∀ bytes, Reads (next bytes) (f bytes)) :
    Reads (fun bytes b => ∃ front back, bytes = front ++ back ∧ field front ∧ next front back b) (x >>= f) := by
  refine (hx.bind hf).congr fun bytes b => ⟨?_, ?_⟩
  · rintro ⟨_, back, front, rfl, ⟨rfl, isField⟩, isNext⟩
    exact ⟨front, back, rfl, isField, isNext⟩
  · rintro ⟨front, back, rfl, isField, isNext⟩
    exact ⟨front, back, front, rfl, ⟨rfl, isField⟩, isNext⟩

theorem requireThen {condition : Bool} {f : Decode β} {next : Bytes → β → Prop} (hf : condition → Reads next f) :
    Reads (fun bytes b => condition ∧ next bytes b) (Deflate.require condition >>= fun _ => f) := by
  cases condition with
  | false => exact ⟨nofun, nofun⟩
  | true => exact (hf rfl).congr fun _ _ => (and_iff_right rfl).symm

theorem require (condition : Bool) : Reads (fun bytes _ => bytes = [] ∧ condition = true) (require condition) := by
  cases condition with
  | false => exact ⟨nofun, nofun⟩
  | true => exact (pure ()).congr fun bytes a => by simp

theorem takeBits (n : Nat) : Reads (fun bytes v => bytes.length = n ∧ v = number bytes) (takeBits (8 * n)) where
  sound {d v d'} h := by
    obtain ⟨used, length, rfl, rest, place⟩ := takeBits_ok h
    obtain ⟨bytes, count, rfl⟩ := Bits.exists_octets length
    refine ⟨bytes, ⟨count, Bits.value_ofOctets bytes⟩, rest, ?_⟩
    rw [place, count]
    rfl
  complete {bytes v} h d taken rest := by
    obtain ⟨rfl, rfl⟩ := h
    have placed := takeBits_placed d taken (Bits.ofOctets bytes) rest
    rwa [Bits.length_ofOctets, Bits.value_ofOctets] at placed

theorem byteThen {f : Nat → Decode β} {next : UInt8 → Bytes → β → Prop} (h : ∀ b : UInt8, Reads (next b) (f b.toNat)) :
    Reads (fun bytes b => ∃ first rest, bytes = first :: rest ∧ next first rest b) (Deflate.takeBits 8 >>= f) where
  sound {d b d''} hd := by
    obtain ⟨v, d', hv, hf⟩ := ok_of_bind hd
    obtain ⟨front, ⟨one, rfl⟩, ahead, place⟩ := (takeBits 1).sound hv
    obtain ⟨first, rfl⟩ := List.length_eq_one_iff.mp one
    obtain ⟨rest, isRest, ahead', place'⟩ := (h first).sound hf
    refine ⟨first :: rest, ⟨first, rest, rfl, isRest⟩, ?_, ?_⟩
    · rw [ahead, ahead']
      exact (List.append_assoc _ _ _).symm
    · have length : 8 * (first :: rest).length = 8 * [first].length + 8 * rest.length := by
        rw [List.length_cons, List.length_singleton, Nat.mul_succ, Nat.add_comm]
      rw [place', place, length, ← Nat.add_assoc]
      rfl
  complete {bytes b} hb d taken rest := by
    obtain ⟨first, others, rfl, isRest⟩ := hb
    have one : Deflate.takeBits 8 (d.placed taken (Bits.ofByte first ++ (Bits.ofOctets others ++ rest))) =
        .ok (first.toNat, d.placed (taken + 8) (Bits.ofOctets others ++ rest)) := by
      have form : [first].length = 1 ∧ first.toNat = number [first] := ⟨rfl, rfl⟩
      exact (takeBits 1).complete form d taken _
    have split : Bits.ofOctets (first :: others) = Bits.ofByte first ++ Bits.ofOctets others := rfl
    rw [split, List.append_assoc, bind_ok one, (h first).complete isRest, List.length_cons, Nat.mul_succ,
      Nat.add_comm (8 * others.length), ← Nat.add_assoc]

end Reads

theorem reads_nothing : Reads (Field (· = [])) (pure []) :=
  (Reads.pure []).congr fun _ _ =>
    ⟨fun ⟨empty, same⟩ => ⟨same.trans empty.symm, empty⟩, fun ⟨same, empty⟩ => ⟨empty, same.trans empty⟩⟩

theorem reads_prepend {form : Bytes → Prop} {rest : Decode Bytes} (h : Reads (Field form) rest) (b : UInt8) :
    Reads (fun bytes taken => taken = b :: bytes ∧ form bytes) (rest >>= fun r => pure (b.toNat.toUInt8 :: r)) := by
  have same : b.toNat.toUInt8 = b := UInt8.ofNat_toNat
  rw [same]
  refine (h.fieldThen fun r => Reads.pure (b :: r)).congr fun bytes taken => ⟨?_, ?_⟩
  · rintro ⟨rest, _, rfl, isRest, rfl, rfl⟩
    rw [List.append_nil]
    exact ⟨rfl, isRest⟩
  · rintro ⟨rfl, isRest⟩
    exact ⟨bytes, [], (List.append_nil bytes).symm, isRest, rfl, rfl⟩

theorem reads_takeBytes (n : Nat) : Reads (Field (·.length = n)) (takeBytes n) := by
  induction n with
  | zero =>
    have empty : Field (·.length = 0) = Field (· = []) := by
      unfold Field
      simp only [List.length_eq_zero_iff]
    rw [empty]
    exact reads_nothing
  | succ n ih =>
    refine (Reads.byteThen fun b => reads_prepend ih b).congr fun bytes taken => ⟨?_, ?_⟩
    · rintro ⟨b, rest, rfl, rfl, length⟩
      exact ⟨rfl, congrArg (· + 1) length⟩
    · rintro ⟨rfl, length⟩
      obtain ⟨b, rest, rfl⟩ := List.exists_cons_of_length_eq_add_one length
      exact ⟨b, rest, rfl, rfl, Nat.succ.inj length⟩

theorem zeroEnded_cons {b : UInt8} {rest : Bytes} :
    ZeroEnded (b :: rest) ↔ if b = 0 then rest = [] else ZeroEnded rest := by
  constructor
  · rintro ⟨text, plain, h⟩
    cases text with
    | nil =>
      obtain ⟨rfl, rfl⟩ := List.cons.inj h
      rfl
    | cons c text =>
      obtain ⟨rfl, rfl⟩ := List.cons.inj h
      have nonzero : b ≠ 0 := fun zero => plain (zero ▸ List.mem_cons_self)
      rw [if_neg nonzero]
      exact ⟨text, fun mem => plain (List.mem_cons_of_mem _ mem), rfl⟩
  · intro h
    by_cases zero : b = 0
    · rw [if_pos zero] at h
      rw [h, zero]
      exact ⟨[], List.not_mem_nil, rfl⟩
    · rw [if_neg zero] at h
      obtain ⟨text, plain, rfl⟩ := h
      refine ⟨b :: text, fun mem => ?_, rfl⟩
      rcases List.mem_cons.mp mem with same | mem
      · exact zero same.symm
      · exact plain mem

theorem reads_takeZeroEnded (fuel : Nat) :
    Reads (Field fun bytes => ZeroEnded bytes ∧ bytes.length ≤ fuel) (takeZeroEnded fuel) := by
  induction fuel with
  | zero =>
    refine ⟨nofun, ?_⟩
    rintro bytes taken ⟨_, ⟨text, _, rfl⟩, short⟩
    cases text <;> cases short
  | succ fuel ih =>
    have after (b : UInt8) : Reads (fun bytes taken => taken = b :: bytes ∧ ZeroEnded (b :: bytes) ∧ bytes.length ≤ fuel)
        (if b.toNat = 0 then pure [0] else takeZeroEnded fuel >>= fun rest => pure (b.toNat.toUInt8 :: rest)) := by
      by_cases zero : b = 0
      · cases zero
        refine (Reads.pure [0]).congr fun bytes taken => ?_
        rw [zeroEnded_cons, if_pos rfl]
        constructor
        · rintro ⟨rfl, rfl⟩
          exact ⟨rfl, rfl, Nat.zero_le fuel⟩
        · rintro ⟨rfl, rfl, _⟩
          exact ⟨rfl, rfl⟩
      · have nonzero : b.toNat ≠ 0 := fun h => zero (UInt8.toNat_inj.mp h)
        rw [if_neg nonzero]
        refine (reads_prepend ih b).congr fun bytes taken => ?_
        rw [zeroEnded_cons, if_neg zero]
    refine (Reads.byteThen after).congr fun bytes taken => ⟨?_, ?_⟩
    · rintro ⟨b, rest, rfl, rfl, ended, short⟩
      exact ⟨rfl, ended, Nat.succ_le_succ short⟩
    · rintro ⟨rfl, ended, short⟩
      obtain ⟨b, rest, rfl⟩ : ∃ b rest, taken = b :: rest := by
        obtain ⟨text, _, rfl⟩ := ended
        exact List.exists_cons_of_ne_nil (List.append_ne_nil_of_right_ne_nil text (List.cons_ne_nil 0 []))
      exact ⟨b, rest, rfl, rfl, ended, Nat.le_of_succ_le_succ short⟩

theorem number_two {size : Bytes} (two : size.length = 2) :
    number size = (size.getD 0 0).toNat + 256 * (size.getD 1 0).toNat := by
  match size, two with
  | [low, high], _ => rfl

theorem reads_takeExtra : Reads (Field Measured) takeExtra := by
  refine ((reads_takeBytes 2).fieldThen fun size => (reads_takeBytes _).fieldThen fun data =>
    Reads.pure (size ++ data)).congr fun bytes taken => ⟨?_, ?_⟩
  · rintro ⟨size, _, rfl, two, data, _, rfl, length, rfl, rfl⟩
    have sized : data.length = number size := length.trans (number_two two).symm
    have bound := number_lt size
    rw [two] at bound
    rw [List.append_nil]
    refine ⟨rfl, data, sized ▸ bound, ?_⟩
    rw [sized, ← two, littleEndian_number]
  · rintro ⟨rfl, data, short, rfl⟩
    have two := length_littleEndian 2 data.length
    refine ⟨littleEndian 2 data.length, data, rfl, two, data, [], (List.append_nil data).symm, ?_, rfl, rfl⟩
    rw [← number_two two, number_littleEndian short]

theorem reads_optionalField (flag : Bool) {form : Bytes → Prop} {field : Decode Bytes} (h : Reads (Field form) field) :
    Reads (Field (Announced flag form)) (optionalField flag field) := by
  cases flag with
  | false => exact reads_nothing
  | true => exact h

/-- A field that a zero ends is short enough for the fuel. -/
theorem reads_optionalText (flag : Bool) (fuel : Nat) :
    Reads (Field fun field => Announced flag ZeroEnded field ∧ field.length ≤ fuel)
      (optionalField flag (takeZeroEnded fuel)) := by
  cases flag with
  | true => exact reads_takeZeroEnded fuel
  | false =>
    refine reads_nothing.congr fun field taken => ⟨?_, ?_⟩
    · rintro ⟨same, rfl⟩
      exact ⟨same, rfl, Nat.zero_le fuel⟩
    · rintro ⟨same, empty, _⟩
      exact ⟨same, empty⟩

theorem reads_checksum (flag : Bool) (covered : Bytes) :
    Reads (fun bytes _ => bytes = if flag then littleEndian 2 ((Crc32.ofBytes covered).toNat % 65536) else [])
      (if flag then takeBits 16 >>= fun sum => require ((Crc32.ofBytes covered).toNat % 65536 == sum) else pure ()) := by
  cases flag with
  | false => exact (Reads.pure ()).congr fun bytes _ => and_iff_left rfl
  | true =>
    refine ((Reads.takeBits 2).bind fun sum => Reads.require _).congr fun bytes _ => ⟨?_, ?_⟩
    · rintro ⟨sum, _, _, rfl, ⟨two, rfl⟩, rfl, same⟩
      rw [List.append_nil, if_pos rfl, eq_of_beq same, ← two, littleEndian_number]
    · intro same
      rw [if_pos rfl] at same
      have small : (Crc32.ofBytes covered).toNat % 65536 < 256 ^ 2 := Nat.mod_lt _ (by decide)
      refine ⟨bytes, [], _, (List.append_nil bytes).symm, ⟨by rw [same, length_littleEndian], rfl⟩, rfl, ?_⟩
      rw [same, number_littleEndian small]
      exact beq_self_eq_true _

theorem method_eq {method : Bytes} (two : method.length = 2)
    (known : (method.getD 0 0 == 8 && (method.getD 1 0).toNat < 32) = true) :
    ∃ flags : UInt8, flags.toNat < 32 ∧ method = [8, flags] := by
  match method, two with
  | [compression, flags], _ =>
    obtain ⟨deflated, small⟩ := Bool.and_eq_true_iff.mp known
    have eight : compression = 8 := eq_of_beq deflated
    exact ⟨flags, of_decide_eq_true small, by rw [eight]⟩

theorem reads_takeHeader (fuel : Nat) : Reads (fun bytes _ => ∃ header : Header,
    header.name.length ≤ fuel ∧ header.comment.length ≤ fuel ∧ bytes = header.bytes) (takeHeader fuel) := by
  refine ((reads_takeBytes 2).fieldThen fun mark => Reads.requireThen fun marked => (reads_takeBytes 2).fieldThen
    fun method => Reads.requireThen fun known => (reads_takeBytes 6).fieldThen fun times =>
      (reads_optionalField _ reads_takeExtra).fieldThen fun extra => (reads_optionalText _ fuel).fieldThen fun name =>
        (reads_optionalText _ fuel).fieldThen fun comment => reads_checksum _ _).congr fun bytes taken => ⟨?_, ?_⟩
  · rintro ⟨mark, _, rfl, _, marked, method, _, rfl, two, known, times, _, rfl, six, extra, _, rfl, isExtra,
      name, _, rfl, ⟨isName, short⟩, comment, _, rfl, ⟨isComment, short'⟩, rfl⟩
    obtain ⟨flags, small, rfl⟩ := method_eq two known
    rw [eq_of_beq marked]
    refine ⟨⟨flags, times, extra, name, comment, small, six, isExtra, isName, isComment⟩, short, short', ?_⟩
    rw [Header.bytes_eq]
    rfl
  · rintro ⟨⟨flags, times, extra, name, comment, small, six, isExtra, isName, isComment⟩, short, short', rfl⟩
    have known : ([8, flags].getD 0 0 == 8 && ([8, flags].getD 1 0).toNat < 32) = true := decide_eq_true small
    rw [Header.bytes_eq]
    exact ⟨[0x1F, 0x8B], _, rfl, rfl, rfl, [8, flags], _, rfl, rfl, known, times, _, rfl, six, extra, _, rfl, isExtra,
      name, _, rfl, ⟨isName, short⟩, comment, _, rfl, ⟨isComment, short'⟩, rfl⟩

theorem requireOutput_ok {test : Array UInt8 → Bool} :
    takeTrailer.requireOutput test d = .ok ((), d') ↔ test d.out = true ∧ d' = d := by
  unfold takeTrailer.requireOutput
  cases test d.out with
  | false => exact ⟨nofun, nofun⟩
  | true =>
    constructor
    · rintro ⟨⟩
      exact ⟨rfl, rfl⟩
    · rintro ⟨_, rfl⟩
      rfl

def check (f : Array UInt8 → Nat) : Decode Unit :=
  takeBits 32 >>= fun v => takeTrailer.requireOutput fun out => f out == v

theorem takeTrailer_eq : takeTrailer = alignToByte >>= fun _ =>
    check (fun out => (Crc32.ofArray out).toNat) >>= fun _ => check fun out => out.size % 0x100000000 := by
  unfold takeTrailer check
  simp only [bind_assoc]

theorem check_ok {f : Array UInt8 → Nat} (h : check f d = .ok ((), d')) :
    d.bits.rest = Bits.ofOctets (littleEndian 4 (f d.out)) ++ d'.bits.rest ∧ d'.out = d.out := by
  obtain ⟨v, d₁, taken, tested⟩ := ok_of_bind h
  obtain ⟨bytes, ⟨four, rfl⟩, rest, place⟩ := (Reads.takeBits 4).sound taken
  obtain ⟨same, rfl⟩ := requireOutput_ok.mp tested
  have out : d'.out = d.out := by
    rw [place]
    rfl
  have value : f d.out = number bytes := by
    rw [← out]
    exact eq_of_beq same
  rw [value, ← four, littleEndian_number]
  exact ⟨rest, out⟩

theorem check_placed {f : Array UInt8 → Nat} (d : Decoder) (small : f d.out < 256 ^ 4) (taken : Nat) (rest : List Bool) :
    check f (d.placed taken (Bits.ofOctets (littleEndian 4 (f d.out)) ++ rest)) = .ok ((), d.placed (taken + 32) rest) := by
  have four : (littleEndian 4 (f d.out)).length = 4 ∧ f d.out = number (littleEndian 4 (f d.out)) :=
    ⟨length_littleEndian 4 _, (number_littleEndian small).symm⟩
  have read := (Reads.takeBits 4).complete four d taken rest
  rw [four.1] at read
  refine (bind_ok read).trans (requireOutput_ok.mpr ⟨?_, rfl⟩)
  exact beq_self_eq_true (f d.out)

theorem ofArray_eq (out : Array UInt8) : Crc32.ofArray out = Crc32.ofBytes out.toList :=
  congrArg (· ^^^ 0xFFFFFFFF) (Array.foldl_toList ..).symm

theorem ofOctets_trailer (out : Array UInt8) : Bits.ofOctets (trailer out.toList) =
    Bits.ofOctets (littleEndian 4 (Crc32.ofArray out).toNat) ++ Bits.ofOctets (littleEndian 4 (out.size % 0x100000000)) := by
  rw [trailer, Bits.ofOctets_append, ofArray_eq, Array.length_toList]

theorem takeTrailer_ok (whole : d.Whole) (h : takeTrailer d = .ok ((), d')) : ∃ padding,
    Padding d.bits.taken padding ∧ d.bits.rest = padding ++ (Bits.ofOctets (trailer d.out.toList) ++ d'.bits.rest) ∧
      d'.out = d.out := by
  rw [takeTrailer_eq] at h
  obtain ⟨_, d₁, aligned, h⟩ := ok_of_bind h
  obtain ⟨_, d₂, checked, measured⟩ := ok_of_bind h
  obtain ⟨padding, isPadding, ahead, place⟩ := alignToByte_ok whole aligned
  obtain ⟨ahead₁, out₁⟩ := check_ok checked
  obtain ⟨ahead₂, out₂⟩ := check_ok measured
  have out : d₁.out = d.out := by
    rw [place]
    rfl
  refine ⟨padding, isPadding, ?_, out₂.trans (out₁.trans out)⟩
  rw [ahead, ahead₁, ahead₂, out₁, out, ofOctets_trailer, List.append_assoc]

theorem takeTrailer_placed {taken : Nat} {padding : List Bool} (aligned : Padding taken padding) (d : Decoder)
    (rest : List Bool) : takeTrailer (d.placed taken (padding ++ (Bits.ofOctets (trailer d.out.toList) ++ rest))) =
      .ok ((), d.placed (taken + padding.length + 32 + 32) rest) := by
  have sum : (Crc32.ofArray d.out).toNat < 256 ^ 4 := UInt32.toNat_lt _
  have size : d.out.size % 0x100000000 < 256 ^ 4 := Nat.mod_lt _ (by decide)
  rw [takeTrailer_eq, bind_ok (alignToByte_placed aligned d _), ofOctets_trailer, List.append_assoc]
  exact (bind_ok (check_placed (f := fun out => (Crc32.ofArray out).toNat) d sum _ _)).trans
    (check_placed (f := fun out => out.size % 0x100000000) d size _ _)

def start : Decoder := ⟨⟨[], 0⟩, #[], none⟩

theorem whole_placed (d : Decoder) {taken : Nat} (begun : taken % 8 = 0) (bytes : Bytes) :
    (d.placed taken (Bits.ofOctets bytes)).Whole := by
  have whole : (taken + (Bits.ofOctets bytes).length) % 8 = 0 := by
    rw [Bits.length_ofOctets]
    omega
  exact whole

theorem stream_of_blocks {bytes : Bytes} {taken fuel : Nat} {padding more : List Bool} (begun : taken % 8 = 0)
    (decoded : blocks fuel (start.placed taken (Bits.ofOctets bytes)) = .ok ((), d))
    (aligned : Padding d.bits.taken padding) (ahead : d.bits.rest = padding ++ more) :
    ∃ stream, Stream stream d.out.toList ∧ Bits.ofOctets bytes = Bits.ofOctets stream ++ more := by
  obtain ⟨used, takes⟩ := (regular_blocks fuel).takes (whole_placed start begun bytes) decoded
  have counted : d.bits.taken = taken + used.length := takes.taken
  have filled : (used ++ padding).length = 8 * ((used ++ padding).length / 8) := by
    have skipped : padding.length = (8 - d.bits.taken % 8) % 8 := aligned
    rw [counted] at skipped
    rw [List.length_append]
    omega
  obtain ⟨stream, _, isStream⟩ := Bits.exists_octets filled
  refine ⟨stream, ⟨fuel, d.placed (0 + used.length) padding, ?_, rfl, ?_⟩, ?_⟩
  · -- the blocks begin with a byte, so they are decoded alike at the beginning of an input
    have restarted := takes.elsewhere 0 padding begun.symm
    rwa [isStream] at restarted
  · exact aligned ▸ Nat.mod_lt _ (by decide)
  · rw [← isStream, List.append_assoc, ← ahead]
    exact takes.rest

theorem blocks_of_stream {stream contents more : Bytes} (h : Stream stream contents) {taken fuel : Nat}
    (begun : taken % 8 = 0) (enough : 8 * (stream ++ more).length < fuel) : ∃ d padding, d.out.toList = contents ∧
      Padding d.bits.taken padding ∧ d.bits.rest = padding ++ Bits.ofOctets more ∧
      blocks fuel (start.placed taken (Bits.ofOctets (stream ++ more))) = .ok ((), d) := by
  obtain ⟨fuel', d, decoded, rfl, short⟩ := h
  obtain ⟨used, takes⟩ := (regular_blocks fuel').takes (whole_placed start rfl stream) decoded
  refine ⟨d.placed (taken + used.length) (d.bits.rest ++ Bits.ofOctets more), d.bits.rest, rfl, ?_, rfl, ?_⟩
  · have lengths : (Bits.ofOctets stream).length = (used ++ d.bits.rest).length := congrArg List.length takes.rest
    rw [Bits.length_ofOctets, List.length_append] at lengths
    have rest : d.bits.rest.length = (8 - (taken + used.length) % 8) % 8 := by omega
    exact rest
  · have rest : Bits.ofOctets (stream ++ more) = used ++ (d.bits.rest ++ Bits.ofOctets more) := by
      rw [Bits.ofOctets_append, ← List.append_assoc, ← takes.rest]
      rfl
    have whole := whole_placed start begun (stream ++ more)
    rw [rest] at whole ⊢
    have restarted := takes.elsewhere taken (d.bits.rest ++ Bits.ofOctets more) begun
    refine blocks_of_fuel whole restarted ?_
    rw [← Bits.length_ofOctets, rest] at enough
    exact enough

/-- What the decoder accepts begins with a member, and everything after the member is left. -/
theorem takeMember_sound {data : Bytes} {fuel : Nat} (h : takeMember fuel ⟨.ofBytes data, #[], none⟩ = .ok ((), d)) :
    ∃ member tail, data = member ++ tail ∧ Member member d.out.toList ∧ d.bits.rest = Bits.ofOctets tail := by
  obtain ⟨_, d₁, headed, h⟩ := ok_of_bind h
  obtain ⟨_, d₂, decoded, ended⟩ := ok_of_bind h
  obtain ⟨_, ⟨header, _, _, rfl⟩, ahead₁, place₁⟩ := (reads_takeHeader fuel).sound headed
  obtain ⟨rest, rfl, left⟩ := Bits.split_octets ahead₁
  have begun : (0 + 8 * header.bytes.length) % 8 = 0 := by omega
  have placed : d₁ = start.placed (0 + 8 * header.bytes.length) (Bits.ofOctets rest) := place₁.trans (by rw [left]; rfl)
  rw [placed] at decoded
  obtain ⟨whole, _⟩ := (regular_blocks fuel).onward (whole_placed start begun rest) decoded
  obtain ⟨padding, aligned, ahead₂, out⟩ := takeTrailer_ok whole ended
  obtain ⟨stream, isStream, ahead₃⟩ := stream_of_blocks begun decoded aligned ahead₂
  -- all parts end with whole bytes, so the bits are divided where the data is
  obtain ⟨_, rfl, left'⟩ := Bits.split_octets ahead₃
  obtain ⟨tail, rfl, last⟩ := Bits.split_octets left'.symm
  refine ⟨header.bytes ++ stream ++ trailer d₂.out.toList, tail, ?_, ?_, last⟩
  · simp only [List.append_assoc]
  · rw [out]
    exact ⟨header, stream, isStream, rfl⟩

theorem Header.short_fields (h : Header) :
    h.name.length ≤ h.bytes.length ∧ h.comment.length ≤ h.bytes.length := by
  rw [bytes_eq]
  simp only [List.length_append]
  omega

theorem takeMember_complete {member contents : Bytes} (h : Member member contents) (tail : Bytes) {fuel : Nat}
    (enough : 8 * (member ++ tail).length < fuel) :
    ∃ d, takeMember fuel ⟨.ofBytes (member ++ tail), #[], none⟩ = .ok ((), d) ∧ d.out.toList = contents ∧
      d.bits.rest = Bits.ofOctets tail := by
  obtain ⟨header, stream, isStream, rfl⟩ := h
  have laid : header.bytes ++ stream ++ trailer contents ++ tail =
      header.bytes ++ (stream ++ (trailer contents ++ tail)) := by simp only [List.append_assoc]
  rw [laid] at enough ⊢
  rw [List.length_append] at enough
  have begun : (0 + 8 * header.bytes.length) % 8 = 0 := by omega
  obtain ⟨name, comment⟩ := header.short_fields
  have headed := (reads_takeHeader fuel).complete (a := ()) ⟨header, by omega, by omega, rfl⟩ start 0
    (Bits.ofOctets (stream ++ (trailer contents ++ tail)))
  rw [← Bits.ofOctets_append] at headed
  have enough' : 8 * (stream ++ (trailer contents ++ tail)).length < fuel := by omega
  obtain ⟨d, padding, rfl, aligned, rest, decoded⟩ := blocks_of_stream isStream begun enough'
  refine ⟨d.placed (d.bits.taken + padding.length + 32 + 32) (Bits.ofOctets tail), ?_, rfl, rfl⟩
  have ended := takeTrailer_placed aligned d (Bits.ofOctets tail)
  rw [← Bits.ofOctets_append, ← rest] at ended
  exact (bind_ok headed).trans ((bind_ok decoded).trans ended)

end Strongbox.Gzip
