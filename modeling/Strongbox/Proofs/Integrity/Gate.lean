import Strongbox.Integrity.Gate
import Strongbox.Proofs.Except
import Strongbox.Proofs.Schema.Reading

/-!
# What passes the integrity gate

A body that passes the gate is a document of the strict dialect whose hash is the code of its items under the
key of the pool.
-/

namespace Strongbox

namespace HasherPool

/-- A pool for a key codes messages under this key. -/
theorem digest_ofKey {key : Text} {size : Int} {pool : HasherPool} (h : ofKey key size = .ok pool) :
    ∃ bytes, Utf8.encode? key = some bytes ∧ ∀ message, (pool.digest message).1 = Hmac.code .sha256 bytes message := by
  unfold ofKey at h
  split at h
  · cases h
  · cases he : Utf8.encode? key with
    | none =>
      rw [he] at h
      cases h
    | some bytes =>
      rw [he] at h
      cases h
      refine ⟨bytes, rfl, fun message => ?_⟩
      rw [← Hmac.finish_update_keyed]
      -- a spare copy is the same as one made on demand
      cases size.toNat with
      | zero => simp only [digest, acquire, List.replicate_zero]
      | succ n => simp only [digest, acquire, List.replicate_succ]

theorem verify_ok {pool : HasherPool} {message : Bytes} {supplied : Text}
    (h : pool.verify message supplied = .ok true) : supplied = Hex.encode (pool.digest message).1 := by
  unfold verify at h
  cases hs : Utf8.encode? supplied with
  | none =>
    rw [hs] at h
    cases h
  | some bytes =>
    rw [hs] at h
    have code := beq_iff_eq.mp (Except.ok.inj h)
    exact Utf8.encode?_injective hs code

end HasherPool

namespace Integrity

/-- The hash of a batch that passes is the code of its items. -/
theorem checkBatch_ok {pool : HasherPool} {check : Json → Schema.Checked α} {form? : α → Option Bytes}
    {supplied : α → Text} {body : Bytes} (h : checkBatch (some pool) check form? supplied body = .ok ()) :
    ∃ batch form, Schema.document check body = .ok batch ∧ form? batch = some form ∧
      supplied batch = Hex.encode (pool.digest form).1 := by
  unfold checkBatch at h
  simp only at h
  cases hd : Schema.document check body with
  | error e =>
    rw [hd] at h
    cases h
  | ok batch =>
    rw [hd] at h
    simp only at h
    cases hf : form? batch with
    | none =>
      rw [hf] at h
      cases h
    | some form =>
      rw [hf] at h
      obtain ⟨valid, hv, h⟩ := bind_eq_ok.mp h
      cases valid with
      | false => cases h
      | true => exact ⟨batch, form, rfl, hf, HasherPool.verify_ok hv⟩

end Integrity

end Strongbox
