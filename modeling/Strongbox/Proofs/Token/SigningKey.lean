import Strongbox.Proofs.Token.Lifetime

/-!
# The key of a token that was issued

A token is signed under the text of the secret, and its signature is checked under the keys that the secret stands for
when it is read as JSON.
-/

namespace Strongbox.Token

variable {s : Settings} {a : Algorithm} {members : ClaimSet}

/-- The last part of a token is its signature under one of the keys that are tried. -/
def signatureAccepted (s : Settings) (text : Text) : Bool :=
  ((Utf8.encode? text).bind Compact.ofBytes?).any fun token =>
    (Base64.decodeUrl? token.signature).any fun signature => checkSignature s token.signed signature = .ok ()

theorem signatureAccepted_sign (known : Algorithm.ofName? s.algorithm = some a) (key : Bytes) :
    signatureAccepted s (sign a key (.object members)) = true ↔
      Codes a s.secretKey (signedBytes a members) (a.code key (signedBytes a members)) := by
  unfold signatureAccepted sign
  rw [Utf8.encode?_of_ascii (Compact.ascii_assemble _ _ _), Option.bind_some, Compact.ofBytes?_assemble, Option.any_some,
    Base64.decodeUrl?_encodeUrl, Option.any_some, decide_eq_true_iff]
  exact checkSignature_ok_iff_codes known

/-- The claims of an issued token are in order until its expiry. -/
theorem judged_issued {issuer : Text} {userId issuedAt expiresAt later : Int} (dated : Timestamp.isDated later = true)
    (unexpired : later / 1000000 ≤ expiresAt) (range : 1 ≤ userId ∧ userId < 2 ^ 63) :
    (do checkClaims ⟨issuer, later⟩ (claimMembers issuer userId issuedAt expiresAt)
        userOf (claimMembers issuer userId issuedAt expiresAt)) = .ok userId := by
  have shown : ¬ Timestamp.isDated later = false := by simp [dated]
  rw [checkClaims_issued, if_neg shown, if_neg (Int.not_lt.mpr unexpired), bind_of_ok rfl, userOf_issued, if_pos range]

/-- The signature of an issued token is accepted exactly if one of the keys that its secret stands for gives the same
code as the secret itself. A secret that stands for itself does; one that is read as another text does only if the two
texts give the same code. Until its expiry a token whose signature is accepted verifies to its user, and any other is
refused or ends in a fault of one of the keys. -/
theorem issued_signature_accepted_iff {s : Settings} {now lifetime userId : Int} {token : Text}
    (issued : issueFor s now lifetime userId = .ok token) :
    ∃ a key before, Algorithm.ofName? s.algorithm = some a ∧ keyOfText s.secretKey = .ok key ∧
      token = Compact.assemble before (a.code key before.asciiBytes) ∧
      (signatureAccepted s token = true ↔ Codes a s.secretKey before.asciiBytes (a.code key before.asciiBytes)) ∧
      (StandsForItself s.secretKey → signatureAccepted s token = true) ∧
      (∀ t, Json.parse keyDialect s.secretKey = .ok (.text t) → (signatureAccepted s token = true ↔
        ∃ key', keyOfText t = .ok key' ∧ a.code key' before.asciiBytes = a.code key before.asciiBytes)) ∧
      ∀ later, s.tokenIssuer.Encodable → Timestamp.isDated later = true →
        later / 1000000 ≤ (now + lifetime) / 1000000 → 1 ≤ userId ∧ userId < 2 ^ 63 →
        (verify s later token = .ok userId ↔ signatureAccepted s token = true) ∧
        ∀ e, verify s later token = .error e → e = .vault (.rejected .invalidToken) ∨
          ∃ f, e = .fault f ∧ (candidates s.secretKey = .error f ∨
            ∃ values v, candidates s.secretKey = .ok values ∧ v ∈ values ∧ keyOfJson v = .error f) := by
  obtain ⟨dated, dated', a, key, known, hkey, rfl⟩ := issueFor_ok issued
  have accepted : signatureAccepted s (sign a key (.object (claimMembers s.tokenIssuer userId (now / 1000000)
      ((now + lifetime) / 1000000)))) = true ↔ _ := signatureAccepted_sign known key
  refine ⟨a, key, _, known, hkey, rfl, accepted, ?_, ?_, ?_⟩
  · intro itself
    exact accepted.mpr (itself.codes_iff.mpr ⟨key, hkey, rfl⟩)
  · intro t ht
    have candidate : candidates s.secretKey = .ok [.text t] := by simp only [candidates, ht]
    exact accepted.trans (codes_iff_of_candidates candidate)
  · intro later issuer shown unexpired range
    have exact : Json.Exact 1 (.object (claimMembers s.tokenIssuer userId (now / 1000000)
        ((now + lifetime) / 1000000))) := exact_claims issuer (short_second dated) (short_second dated')
    rw [verify_sign known key exact (by decide), judged_issued shown unexpired range, accepted,
      ← checkSignature_ok_iff_codes known]
    refine ⟨?_, ?_⟩
    · constructor
      · intro h
        obtain ⟨_, signed, _⟩ := bind_eq_ok.mp h
        exact signed
      · intro signed
        exact bind_of_ok signed
    · intro e he
      rcases bind_eq_error.mp he with failed | ⟨_, _, failed⟩
      · exact checkSignature_error known failed
      · cases failed

theorem sample_signature_accepted : issueFor sampleSettings 0 3600000000 1 = .ok sampleToken ∧
    signatureAccepted sampleSettings sampleToken = true := by
  have issued : issueFor sampleSettings 0 3600000000 1 = .ok sampleToken := by decide +kernel
  obtain ⟨_, _, _, _, _, _, _, itself, _⟩ := issued_signature_accepted_iff issued
  exact ⟨issued, itself (standsForItself_of_not_json secret_of_sample)⟩

def quotedSettings : Settings := { secretKey := [34, 107, 34] }

def quotedToken : Text :=
  Text.ofString <| "eyJhbGciOiJIUzI1NiIsInR5cCI6IkpXVCJ9" ++
    ".eyJpc3MiOiJwYXNzdmF1bHQiLCJzdWIiOiIxIiwiaWF0IjowLCJleHAiOjM2MDB9" ++
    ".zC-0k9MHtkuzNMDeCmBDzptjrhX6Jpu3HsLJ8_24n9Q"

/-- A token that is signed under a secret in quotes is checked under the text between the quotes, and refused. -/
theorem quoted_secret_refuses_its_tokens : issueFor quotedSettings 0 3600000000 1 = .ok quotedToken ∧
    signatureAccepted quotedSettings quotedToken = false ∧
    verify quotedSettings 5 quotedToken = Outcome.reject (.rejected .invalidToken) := by
  decide +kernel

end Strongbox.Token
