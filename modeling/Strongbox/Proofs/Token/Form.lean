import Mathlib.Data.List.TakeWhile
import Strongbox.Proofs.Encoding.Base64
import Strongbox.Proofs.Text.Utf8
import Strongbox.Token.Compact

/-!
# The form of a token

A token that was put together is taken apart into the same parts. The last point of a text is the last point of its
bytes, so what is signed is the text before it as it was sent.
-/

namespace Strongbox

namespace Text

variable {c : CodePoint} {t before after : Text}

theorem cutFirst?_append (after : Text) (h : c ∉ before) : cutFirst? c (before ++ c :: after) = some (before, after) := by
  have others : ∀ d ∈ before, (d != c) = true := by
    intro d hd
    rw [bne_iff_ne]
    rintro rfl
    exact h hd
  have dropped : (before ++ c :: after).dropWhile (· != c) = c :: after := by
    rw [List.dropWhile_append_of_pos others, List.dropWhile_cons_of_neg (by simp)]
  have taken : (before ++ c :: after).takeWhile (· != c) = before := by
    rw [List.takeWhile_append_of_pos others, List.takeWhile_cons_of_neg (by simp), List.append_nil]
  rw [cutFirst?, dropped, taken]

theorem cutFirst?_eq_some (h : cutFirst? c t = some (before, after)) : t = before ++ c :: after ∧ c ∉ before := by
  have whole := List.takeWhile_append_dropWhile (p := (· != c)) (l := t)
  unfold cutFirst? at h
  cases hd : t.dropWhile (· != c) with
  | nil =>
    rw [hd] at h
    cases h
  | cons d rest =>
    have first : d = c := by
      have stop := List.head?_dropWhile_not (· != c) t
      rw [hd] at stop
      simpa using stop
    subst first
    rw [hd] at h whole
    cases h
    refine ⟨whole.symm, fun hm => ?_⟩
    have kept := List.mem_takeWhile_imp hm
    simp at kept

theorem cutFirst?_of_mem (h : c ∈ t) : ∃ parts, cutFirst? c t = some parts := by
  unfold cutFirst?
  cases hd : t.dropWhile (· != c) with
  | nil =>
    have other := List.dropWhile_eq_nil_iff.mp hd c h
    simp at other
  | cons d rest => exact ⟨_, rfl⟩

theorem cutLast?_append (before : Text) (h : c ∉ after) : cutLast? c (before ++ c :: after) = some (before, after) := by
  have reversed : (before ++ c :: after).reverse = after.reverse ++ c :: before.reverse := by simp
  have fresh : c ∉ after.reverse := by rwa [List.mem_reverse]
  rw [cutLast?, reversed, cutFirst?_append before.reverse fresh]
  simp

theorem cutLast?_eq_some (h : cutLast? c t = some (before, after)) : t = before ++ c :: after ∧ c ∉ after := by
  unfold cutLast? at h
  obtain ⟨⟨back, front⟩, hcut, heq⟩ := Option.map_eq_some_iff.mp h
  cases heq
  obtain ⟨whole, fresh⟩ := cutFirst?_eq_some hcut
  refine ⟨?_, by rwa [List.mem_reverse]⟩
  rw [← List.reverse_reverse t, whole]
  simp

theorem cutLast?_of_mem (h : c ∈ t) : ∃ before after, cutLast? c t = some (before, after) := by
  obtain ⟨⟨back, front⟩, hcut⟩ := cutFirst?_of_mem (List.mem_reverse.mpr h)
  exact ⟨front.reverse, back.reverse, by rw [cutLast?, hcut, Option.map_some]⟩

end Text

namespace Token.Compact

theorem widen_asciiBytes {t : Text} (h : t.Ascii) : widen t.asciiBytes = t := by
  rw [widen, Text.asciiBytes, List.map_map]
  have same : ∀ c ∈ t, (UInt8.toNat ∘ Nat.toUInt8) c = c := by
    intro c hc
    exact Utf8.toNat_toUInt8 (Nat.lt_trans (h c hc) (by decide))
  rw [List.map_congr_left same, List.map_id']

theorem map_toUInt8_widen (bytes : Bytes) : (widen bytes).map Nat.toUInt8 = bytes := by
  rw [widen, List.map_map]
  have same : ∀ b ∈ bytes, (Nat.toUInt8 ∘ UInt8.toNat) b = b := fun b _ => Base64.toUInt8_of_eq rfl
  rw [List.map_congr_left same, List.map_id']

theorem widen_append (x y : Bytes) : widen (x ++ y) = widen x ++ widen y := List.map_append

theorem ascii_encodeUrl (data : Bytes) : (Base64.encodeUrl data).Ascii := fun _ hc => (Base64.encodeUrl_safe hc).1

theorem point_not_mem_encodeUrl (data : Bytes) : 46 ∉ Base64.encodeUrl data :=
  fun hc => (Base64.encodeUrl_safe hc).2 rfl

theorem ascii_signedText (header payload : Bytes) : (signedText header payload).Ascii :=
  (ascii_encodeUrl header).append ((ascii_encodeUrl payload).cons (by decide))

theorem ascii_assemble (header payload signature : Bytes) :
    (assemble (signedText header payload) signature).Ascii :=
  (ascii_signedText header payload).append ((ascii_encodeUrl signature).cons (by decide))

/-- A token that was put together has the parts that it was put together from. -/
theorem ofBytes?_assemble (header payload signature : Bytes) :
    ofBytes? (assemble (signedText header payload) signature).asciiBytes =
      some ⟨(signedText header payload).asciiBytes, Base64.encodeUrl header, Base64.encodeUrl payload,
        Base64.encodeUrl signature⟩ := by
  have last := Text.cutLast?_append (signedText header payload) (point_not_mem_encodeUrl signature)
  have first := Text.cutFirst?_append (Base64.encodeUrl payload) (point_not_mem_encodeUrl header)
  rw [ofBytes?, widen_asciiBytes (ascii_assemble header payload signature), assemble, last]
  simp only [Option.bind_eq_bind, Option.bind_some]
  rw [signedText, first]
  rfl

theorem point_mem_of_bytes {t : Text} {bytes : Bytes} (h : Utf8.encode? t = some bytes) (hm : 46 ∈ widen bytes) :
    46 ∈ t := by
  obtain ⟨b, hb, value⟩ := List.mem_map.mp hm
  have low : b.toNat < 128 := by
    rw [value]
    decide
  have found := Utf8.mem_of_mem_encode? h hb low
  rwa [value] at found

structure Cut (text : Text) (token : Compact) (before after : Text) : Prop where
  whole : text = before ++ 46 :: after
  last : 46 ∉ after
  signed : Utf8.encode? before = some token.signed
  signature : ∃ tail, Utf8.encode? after = some tail ∧ token.signature = widen tail
  parts : Text.cutFirst? 46 (widen token.signed) = some (token.header, token.payload)

/-- The bytes of a text are cut where the text has its last point. -/
theorem cut_of_ofBytes? {text : Text} {bytes : Bytes} {token : Compact} (hb : Utf8.encode? text = some bytes)
    (h : ofBytes? bytes = some token) : ∃ before after, Cut text token before after := by
  obtain ⟨⟨signed, signature⟩, hlast, h⟩ := Option.bind_eq_some_iff.mp h
  obtain ⟨⟨header, payload⟩, hfirst, h⟩ := Option.bind_eq_some_iff.mp h
  cases h
  obtain ⟨split, _⟩ := Text.cutLast?_eq_some hlast
  have point : 46 ∈ text := by
    apply point_mem_of_bytes hb
    rw [split]
    simp
  obtain ⟨before, after, hcut⟩ := Text.cutLast?_of_mem point
  obtain ⟨rfl, fresh⟩ := Text.cutLast?_eq_some hcut
  obtain ⟨x, y, hx, hy, rfl⟩ := Utf8.encode?_append hb
  obtain ⟨z, tail, hz, htail, rfl⟩ := Utf8.encode?_append (t := [46]) hy
  have dot : z = [46] := by
    have ascii : Utf8.encode? [46] = some [46] := rfl
    rw [ascii] at hz
    exact (Option.some.inj hz).symm
  subst dot
  have fresh' : 46 ∉ widen tail := fun hm => fresh (point_mem_of_bytes htail hm)
  have widened : widen (x ++ ([46] ++ tail)) = widen x ++ 46 :: widen tail := by
    rw [widen_append, widen_append]
    rfl
  rw [widened, Text.cutLast?_append _ fresh'] at hlast
  cases hlast
  refine ⟨before, after, rfl, fresh, ?_, ⟨tail, htail, rfl⟩, ?_⟩
  · rw [map_toUInt8_widen]
    exact hx
  · rw [map_toUInt8_widen]
    exact hfirst

end Token.Compact

end Strongbox
