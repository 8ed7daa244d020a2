import Strongbox.Proofs.Json.RoundTrip
import Strongbox.Proofs.Timestamp
import Strongbox.Proofs.Token.Genuine

/-!
# Tokens that were issued

An issued token is verified under the same settings as long as the second of its expiry is not over.
-/

namespace Strongbox.Token

theorem membersOf_toAscii {room : Nat} {members : ClaimSet} (h : Json.Exact room (.object members))
    (deep : room ≤ Json.Dialect.lenient.depthLimit) :
    membersOf (Json.toAscii (.object members)).asciiBytes = .ok members := by
  have read : Json.parse .lenient (Json.toAscii (.object members)) = .ok (.object members) :=
    Json.parse_print rfl deep true h
  simp only [membersOf, Json.decode?_toAscii h, read]

theorem bytesOf_encodeUrl (data : Bytes) : bytesOf (Base64.encodeUrl data) = .ok data := by
  simp only [bytesOf, Base64.decodeUrl?_encodeUrl]

def headerMembers (a : Algorithm) : ClaimSet :=
  [(Text.ofString "alg", .text a.name), (Text.ofString "typ", .text (Text.ofString "JWT"))]

theorem encodable_name (a : Algorithm) : a.name.Encodable := by
  cases a with
  | hs256 => decide
  | hs384 => decide
  | hs512 => decide

theorem exact_header (a : Algorithm) : Json.Exact 1 (.object (headerMembers a)) := by
  have names : (headerMembers a).map (·.1) = ["alg", "typ"].map Text.ofString := rfl
  have encodableNames : ∀ name ∈ ["alg", "typ"].map Text.ofString, name.Encodable := by decide
  apply Json.Exact.object
  · rw [names]
    decide
  · intro m hm
    apply encodableNames
    rw [← names]
    exact List.mem_map_of_mem hm
  · intro m hm
    simp only [headerMembers, List.mem_cons, List.not_mem_nil, or_false] at hm
    rcases hm with rfl | rfl
    · exact .text (encodable_name a)
    · exact .text (by decide)

variable {s : Settings} {a : Algorithm} {members : ClaimSet}

def signedBytes (a : Algorithm) (members : ClaimSet) : Bytes :=
  (Compact.signedText (newHeader a).toAscii.asciiBytes (Json.toAscii (.object members)).asciiBytes).asciiBytes

theorem checkAlgorithm_header (known : Algorithm.ofName? s.algorithm = some a) :
    checkAlgorithm s (headerMembers a) = .ok () := by
  apply checkAlgorithm_of_name known
  rw [← Algorithm.name_of_ofName? known]
  rfl

/-- A document that was signed under a key is judged by its claims alone, once its signature is found to be in order. -/
theorem verify_sign {room : Nat} (known : Algorithm.ofName? s.algorithm = some a) (key : Bytes)
    (h : Json.Exact room (.object members)) (deep : room ≤ Json.Dialect.lenient.depthLimit) (now : Int) :
    verify s now (sign a key (.object members)) =
      (do checkSignature s (signedBytes a members) (a.code key (signedBytes a members))
          checkClaims ⟨s.tokenIssuer, now⟩ members
          userOf members) := by
  have header : newHeader a = .object (headerMembers a) := rfl
  have readHeader := membersOf_toAscii (exact_header a) (by decide)
  have readClaims := membersOf_toAscii h deep
  unfold verify sign
  rw [header]
  simp only [Utf8.encode?_of_ascii (Compact.ascii_assemble _ _ _), Compact.ofBytes?_assemble]
  rw [bind_of_ok (bytesOf_encodeUrl _), bind_of_ok readHeader, bind_of_ok (bytesOf_encodeUrl _),
    bind_of_ok (bytesOf_encodeUrl _), bind_of_ok (checkAlgorithm_header known)]
  congr 1
  funext _
  rw [bind_of_ok readClaims]

/-- If the secret stands for itself, a document that was signed under it is judged by its claims alone. -/
theorem verify_sign_secret {room : Nat} {key : Bytes} (known : Algorithm.ofName? s.algorithm = some a)
    (secret : StandsForItself s.secretKey) (hkey : keyOfText s.secretKey = .ok key)
    (h : Json.Exact room (.object members)) (deep : room ≤ Json.Dialect.lenient.depthLimit) (now : Int) :
    verify s now (sign a key (.object members)) =
      (do checkClaims ⟨s.tokenIssuer, now⟩ members; userOf members) := by
  rw [verify_sign known key h deep]
  exact bind_of_ok ((checkSignature_ok_iff_codes known).mpr (secret.codes_iff.mpr ⟨key, hkey, rfl⟩))

/-- The second of a point in time that has a date is short enough to be read. -/
theorem short_second {wall : Int} (h : Timestamp.isDated wall = true) :
    (Text.ofNat (wall / 1000000).natAbs).length ≤ Text.digitLimit := by
  have range := Timestamp.isDated_iff.mp h
  apply Text.short_of_held
  · omega
  · omega

def claimMembers (issuer : Text) (userId issuedAt expiresAt : Int) : ClaimSet :=
  [(Text.ofString "iss", .text issuer), (Text.ofString "sub", .text (Text.ofInt userId)),
    (Text.ofString "iat", .int issuedAt), (Text.ofString "exp", .int expiresAt)]

variable {issuer : Text} {userId issuedAt expiresAt : Int}

theorem exact_claims (encodable : issuer.Encodable) (issued : (Text.ofNat issuedAt.natAbs).length ≤ Text.digitLimit)
    (expires : (Text.ofNat expiresAt.natAbs).length ≤ Text.digitLimit) :
    Json.Exact 1 (.object (claimMembers issuer userId issuedAt expiresAt)) := by
  have names : (claimMembers issuer userId issuedAt expiresAt).map (·.1) =
      ["iss", "sub", "iat", "exp"].map Text.ofString := rfl
  have encodableNames : ∀ name ∈ ["iss", "sub", "iat", "exp"].map Text.ofString, name.Encodable := by decide
  apply Json.Exact.object
  · rw [names]
    decide
  · intro m hm
    apply encodableNames
    rw [← names]
    exact List.mem_map_of_mem hm
  · intro m hm
    simp only [claimMembers, List.mem_cons, List.not_mem_nil, or_false] at hm
    rcases hm with rfl | rfl | rfl | rfl
    · exact .text encodable
    · exact .text (Utf8.encodable_of_ascii (Json.ascii_ofInt userId))
    · exact .int issued
    · exact .int expires

/-- Of issued claims only the expiry can be out of order. -/
theorem checkClaims_issued (later : Int) :
    checkClaims ⟨issuer, later⟩ (claimMembers issuer userId issuedAt expiresAt) =
      if Timestamp.isDated later = false then Outcome.fail .overflow
      else if expiresAt < later / 1000000 then Outcome.reject (.rejected .expiredToken)
      else .ok () := by
  have others : checkClaims ⟨issuer, later⟩ (claimMembers issuer userId issuedAt expiresAt) =
      (do checkExpiry ⟨issuer, later⟩ (claimMembers issuer userId issuedAt expiresAt)
          checkIssuer ⟨issuer, later⟩ (claimMembers issuer userId issuedAt expiresAt)
          .ok ()) := rfl
  have expiry : checkExpiry ⟨issuer, later⟩ (claimMembers issuer userId issuedAt expiresAt) =
      (do let second ← Clock.second later
          if expiresAt < second then Outcome.reject (.rejected .expiredToken) else .ok ()) := rfl
  have same : checkIssuer ⟨issuer, later⟩ (claimMembers issuer userId issuedAt expiresAt) = .ok () := by
    have name : claim? "iss" (claimMembers issuer userId issuedAt expiresAt) = some (.text issuer) := rfl
    simp only [checkIssuer, name, if_true]
  rw [others, expiry, same, second_eq]
  by_cases shown : Timestamp.isDated later = false
  · rw [if_pos shown, if_pos shown]
    rfl
  · rw [if_neg shown, if_neg shown, bind_of_ok rfl]
    split
    · rfl
    · rfl

theorem isUserId_iff {n : Int} : isUserId n = true ↔ 1 ≤ n ∧ n < 2 ^ 63 := by
  rw [isUserId, Bool.and_eq_true, decide_eq_true_eq, decide_eq_true_eq]
  constructor
  · intro h
    omega
  · intro h
    omega

/-- The user of issued claims is the one they were issued for, if an id can be that. -/
theorem userOf_issued : userOf (claimMembers issuer userId issuedAt expiresAt) =
    if 1 ≤ userId ∧ userId < 2 ^ 63 then .ok userId else Outcome.reject (.rejected .invalidToken) := by
  have check : Claims.check (.object (claimMembers issuer userId issuedAt expiresAt)) =
      .ok ⟨some (Text.ofInt userId), some issuer, some issuedAt, some expiresAt⟩ := rfl
  simp only [userOf, check, Option.bind_some, Text.readInteger?_ofInt]
  by_cases range : 1 ≤ userId ∧ userId < 2 ^ 63
  · have short : (Text.ofNat userId.natAbs).length ≤ Text.digitLimit := by
      apply Text.short_of_held
      · omega
      · omega
    rw [if_neg (Nat.not_lt.mpr short), if_pos range]
    exact if_pos (isUserId_iff.mpr range)
  · rw [if_neg range]
    -- an id that is out of range may have too many digits, or is read and then refused
    split
    · rfl
    · rename_i n hn
      split at hn
      · cases hn
      · cases hn
        exact if_neg fun h => range (isUserId_iff.mp h)

theorem issueFor_ok {now lifetime userId : Int} {token : Text} (h : issueFor s now lifetime userId = .ok token) :
    Timestamp.isDated now = true ∧ Timestamp.isDated (now + lifetime) = true ∧
      ∃ a key, Algorithm.ofName? s.algorithm = some a ∧ keyOfText s.secretKey = .ok key ∧ token = sign a key
        (.object (claimMembers s.tokenIssuer userId (now / 1000000) ((now + lifetime) / 1000000))) := by
  have read : ∀ {now second : Int}, Clock.read now = .ok second → Timestamp.isDated now = true ∧ second = now := by
    intro now second hr
    unfold Clock.read at hr
    split at hr
    · rename_i dated
      cases hr
      exact ⟨dated, rfl⟩
    · cases hr
  obtain ⟨start, hstart, h⟩ := bind_eq_ok.mp h
  obtain ⟨expiry, hexpiry, h⟩ := bind_eq_ok.mp h
  obtain ⟨_, hnow, hend⟩ := bind_eq_ok.mp hexpiry
  obtain ⟨dated, rfl⟩ := read hnow
  obtain ⟨dated', rfl⟩ := read hend
  have second := second_ok hstart
  subst second
  split at h
  · rename_i a key known hkey
    cases h
    exact ⟨dated, dated', a, key, known, hkey, rfl⟩
  · cases h

theorem secret_of_sample (v : Json) : Json.parse keyDialect sampleSettings.secretKey ≠ .ok v := by
  have malformed : Json.parse keyDialect sampleSettings.secretKey = .error .malformed := rfl
  intro hv
  rw [malformed] at hv
  cases hv

/-- An issued token verifies, under the same settings, to the user that it was issued for, exactly until the second of
its expiry is over, provided that the id is one of a user. The clock shows no time without a date. -/
theorem issued_tokens_verify_until_expiry {s : Settings} {now lifetime userId : Int} {token : Text}
    (secret : ∀ v, Json.parse keyDialect s.secretKey ≠ .ok v) (issuer : s.tokenIssuer.Encodable)
    (issued : issueFor s now lifetime userId = .ok token) (later : Int) :
    verify s later token =
      if Timestamp.isDated later = false then Outcome.fail .overflow
      else if (now + lifetime) / 1000000 < later / 1000000 then Outcome.reject (.rejected .expiredToken)
      else if 1 ≤ userId ∧ userId < 2 ^ 63 then .ok userId
      else Outcome.reject (.rejected .invalidToken) := by
  obtain ⟨dated, dated', a, key, known, hkey, rfl⟩ := issueFor_ok issued
  have exact : Json.Exact 1 (.object (claimMembers s.tokenIssuer userId (now / 1000000) ((now + lifetime) / 1000000))) :=
    exact_claims issuer (short_second dated) (short_second dated')
  rw [verify_sign_secret known (standsForItself_of_not_json secret) hkey exact (by decide), checkClaims_issued]
  by_cases shown : Timestamp.isDated later = false
  · rw [if_pos shown, if_pos shown]
    rfl
  · rw [if_neg shown, if_neg shown]
    by_cases past : (now + lifetime) / 1000000 < later / 1000000
    · rw [if_pos past, if_pos past]
      rfl
    · rw [if_neg past, if_neg past]
      exact userOf_issued

theorem sample_verifies_until_expiry : issueFor sampleSettings 0 3600000000 1 = .ok sampleToken ∧
    verify sampleSettings 3600999999 sampleToken = .ok 1 ∧
    verify sampleSettings 3601000000 sampleToken = Outcome.reject (.rejected .expiredToken) := by
  have encodable : sampleSettings.tokenIssuer.Encodable := by decide
  have issued : issueFor sampleSettings 0 3600000000 1 = .ok sampleToken := by decide +kernel
  have verdict := issued_tokens_verify_until_expiry secret_of_sample encodable issued
  refine ⟨issued, ?_, ?_⟩
  · rw [verdict]
    decide
  · rw [verdict]
    decide

end Strongbox.Token
