import Strongbox.Proofs.Http.Layers

/-!
# Compressed transport

What is served depends on the headers that do not describe the body, and on the body as a whole. So a request
whose body is compressed for the way is answered like the request with the plain body, however the bodies are
cut into messages.
-/

namespace Strongbox.Http

structure Request.Alike (r r' : Request) : Prop where
  method : r.method = r'.method
  path : r.path = r'.path
  query : r.query = r'.query
  header : ∀ name : String, Text.ofString name ≠ Text.ofString "content-encoding" →
    Text.ofString name ≠ Text.ofString "content-length" → header? name r.headers = header? name r'.headers

namespace Request.Alike

variable {r r' : Request} (alike : r.Alike r')
include alike

theorem contentOf_eq (body : Bytes) : contentOf r.headers body = contentOf r'.headers body := by
  unfold contentOf
  rw [alike.header _ (by decide) (by decide)]

theorem redirect_eq (path : Text) : r.redirect path = r'.redirect path := by
  unfold Request.redirect Request.addressOf
  rw [alike.header _ (by decide) (by decide), alike.query]

theorem compressed_eq (minimum : Int) (response : Response) :
    compressed minimum r.headers response = compressed minimum r'.headers response := by
  unfold compressed acceptsGzip
  rw [alike.header _ (by decide) (by decide)]

theorem isQuestion_eq : CrossOrigin.isQuestion r = CrossOrigin.isQuestion r' := by
  unfold CrossOrigin.isQuestion
  rw [alike.method, alike.header "origin" (by decide) (by decide),
    alike.header "access-control-request-method" (by decide) (by decide)]

theorem answer_eq (origins : CrossOrigin.Origins) :
    CrossOrigin.answer origins r = CrossOrigin.answer origins r' := by
  unfold CrossOrigin.answer CrossOrigin.refusals
  rw [alike.header "origin" (by decide) (by decide),
    alike.header "access-control-request-method" (by decide) (by decide),
    alike.header "access-control-request-private-network" (by decide) (by decide),
    alike.header "access-control-request-headers" (by decide) (by decide)]

theorem marked_eq (origins : CrossOrigin.Origins) (response : Response) :
    CrossOrigin.marked origins r response = CrossOrigin.marked origins r' response := by
  unfold CrossOrigin.marked
  rw [alike.header _ (by decide) (by decide)]

/-- The trace ids are the same if the request brings one, or if the same one is made up. -/
theorem traceId_eq {m m' : Moment}
    (trace : (header? "x-trace-id" r'.headers).getD [] ≠ [] ∨ m.freshTrace = m'.freshTrace) :
    App.traceId m r = App.traceId m' r' := by
  have same : header? "x-trace-id" r.headers = header? "x-trace-id" r'.headers :=
    alike.header _ (by decide) (by decide)
  unfold App.traceId
  rw [same]
  cases hid : header? "x-trace-id" r'.headers with
  | none =>
    rcases trace with own | made
    · simp [hid] at own
    · exact made
  | some id =>
    cases id with
    | nil =>
      rcases trace with own | made
      · simp [hid] at own
      · exact made
    | cons c rest => rfl

variable (body : r.body = r'.body) {m m' : Moment} (now : m.now = m'.now) (random : m.random = m'.random)
include body now random

theorem prepare_eq (s : Service) (e : Endpoint) : s.prepare m e r = s.prepare m' e r' := by
  have caller : s.caller m.now r = s.caller m'.now r' := by
    unfold Service.caller
    rw [alike.header _ (by decide) (by decide), now]
  rw [Service.prepare_eq, Service.prepare_eq, body, caller, random]
  simp only [alike.contentOf_eq]

theorem serve_eq (s : Service) (e : Endpoint) (db : Database) : s.serve m e r db = s.serve m' e r' db := by
  unfold Service.serve
  rw [alike.prepare_eq body now random, now]

theorem routed_eq (app : App) : app.routed m r = app.routed m' r' := by
  unfold App.routed
  rw [alike.method, alike.path]
  simp only [alike.redirect_eq, alike.serve_eq body now random]

theorem inflated_eq (app : App) : app.inflated m r = app.inflated m' r' := by
  have compressing : compressed app.settings.gzipMinimumSize r.headers =
      compressed app.settings.gzipMinimumSize r'.headers := funext (alike.compressed_eq _)
  unfold App.inflated
  rw [alike.routed_eq body now random, compressing]

end Request.Alike

def withoutLength (headers : Headers) : Headers := headers.filter fun h => h.1 ≠ Text.ofString "content-length"

theorem find?_withoutLength {p : Text × Text → Bool} (headers : Headers)
    (hp : ∀ h, p h = true → h.1 ≠ Text.ofString "content-length") :
    (withoutLength headers).find? p = headers.find? p := by
  unfold withoutLength
  rw [List.find?_filter]
  congr 1
  funext h
  cases hh : p h with
  | false => simp
  | true => simp [hp h hh]

theorem header?_withoutLength {name : String} (headers : Headers)
    (hlength : Text.ofString name ≠ Text.ofString "content-length") :
    header? name (withoutLength headers) = header? name headers := by
  unfold header?
  rw [find?_withoutLength headers]
  intro h hn
  rwa [eq_of_beq hn]

/-- A request, and the same one with its body compressed for the way. The length of the body is not compared. -/
structure Gzipped (limit : Int) (plain zipped : Request) : Prop where
  method : zipped.method = plain.method
  path : zipped.path = plain.path
  query : zipped.query = plain.query
  /-- One header more says that the body is compressed. -/
  headers : ∃ before coding after, withoutLength plain.headers = before ++ after ∧
    withoutLength zipped.headers = before ++ (Text.ofString "content-encoding", coding) :: after ∧
    Text.lowerAscii coding = Text.ofString "gzip"
  uncoded : ∀ h ∈ plain.headers, h.1 ≠ Text.ofString "content-encoding"
  body : ∃ body data rest rest', collect? plain.messages = some (body, rest) ∧
    collect? zipped.messages = some (data, rest') ∧ Gzip.inflate limit data = .ok (some body)

namespace Gzipped

variable {limit : Int} {plain zipped : Request} (h : Gzipped limit plain zipped)
include h

theorem header?_eq {name : String} (hencoding : Text.ofString name ≠ Text.ofString "content-encoding")
    (hlength : Text.ofString name ≠ Text.ofString "content-length") :
    header? name zipped.headers = header? name plain.headers := by
  obtain ⟨before, coding, after, hplain, hzipped, _⟩ := h.headers
  have other : (Text.ofString "content-encoding" == Text.ofString name) = false :=
    beq_eq_false_iff_ne.mpr (Ne.symm hencoding)
  rw [← header?_withoutLength zipped.headers hlength, ← header?_withoutLength plain.headers hlength, hplain,
    hzipped]
  unfold header?
  simp only [List.find?_append, List.find?_cons, other]

theorem isCompressed_zipped : isCompressed zipped.headers = true := by
  obtain ⟨before, coding, after, hplain, hzipped, hcoding⟩ := h.headers
  -- no header after the added one says how the body is coded
  have last : after.reverse.find? (fun x => x.1 == Text.ofString "content-encoding") = none := by
    refine List.find?_eq_none.mpr fun x hx => ?_
    have listed : x ∈ withoutLength plain.headers :=
      hplain ▸ List.mem_append_right before (List.mem_reverse.mp hx)
    rw [beq_iff_eq]
    exact h.uncoded x (List.mem_filter.mp listed).1
  have found : lastHeader? "content-encoding" zipped.headers = some coding := by
    unfold lastHeader?
    rw [← find?_withoutLength zipped.headers.reverse ?_]
    · have turned : withoutLength zipped.headers.reverse = (withoutLength zipped.headers).reverse :=
        List.filter_reverse
      rw [turned, hzipped]
      simp [last]
    · intro x hx
      rw [eq_of_beq hx]
      decide
  unfold isCompressed
  rw [found, Option.map_some, hcoding]
  rfl

theorem isCompressed_plain : isCompressed plain.headers = false := by
  have none : plain.headers.reverse.find? (fun x => x.1 == Text.ofString "content-encoding") = none := by
    refine List.find?_eq_none.mpr fun x hx => ?_
    rw [beq_iff_eq]
    exact h.uncoded x (List.mem_reverse.mp hx)
  unfold isCompressed lastHeader?
  rw [none]
  rfl

theorem alike : zipped.Alike plain where
  method := h.method
  path := h.path
  query := h.query
  header _ := h.header?_eq

/-- What is passed on for the compressed request differs from the plain one in the description of its body. -/
theorem received {app : App} (happ : app.settings.maxInflatedBodySize = limit) :
    ∃ headers messages, inflateBody app.settings.maxInflatedBodySize zipped.headers zipped.messages =
      .replaced headers messages ∧ { zipped with headers, messages }.Alike plain ∧
      { zipped with headers, messages }.body = plain.body := by
  obtain ⟨body, data, rest, rest', hplain, hzipped, hinflate⟩ := h.body
  refine ⟨replacedHeaders body.length zipped.headers, .body body false :: rest', ?_, ?_, ?_⟩
  · rw [happ]
    simp only [inflateBody, h.isCompressed_zipped, if_true, hzipped, hinflate]
  · exact
      { h.alike with
        header := fun _ hencoding hlength =>
          (App.header?_replacedHeaders _ _ hencoding hlength).trans (h.header?_eq hencoding hlength) }
  · unfold Request.body
    rw [hplain]
    rfl

end Gzipped

/-- A request with a compressed body is answered like the one with the plain body, and leaves the same database:
whatever its target, its other headers, the settings and the database are, and however the two bodies are cut into
messages. The circumstances are the same but perhaps for the trace id that is made up, if the request has none. -/
theorem gzip_is_transparent {app : App} {plain zipped : Request} {m m' : Moment}
    (h : Gzipped app.settings.maxInflatedBodySize plain zipped) (now : m.now = m'.now)
    (random : m.random = m'.random)
    (trace : (header? "x-trace-id" plain.headers).getD [] ≠ [] ∨ m.freshTrace = m'.freshTrace) :
    app.handle m zipped = app.handle m' plain := by
  obtain ⟨headers, messages, hinflate, alike, body⟩ := h.received rfl
  have unpacked : app.unpacked m zipped = app.unpacked m' plain := by
    have untouched : inflateBody app.settings.maxInflatedBodySize plain.headers plain.messages = .untouched := by
      simp only [inflateBody, h.isCompressed_plain, Bool.false_eq_true, if_false]
    unfold App.unpacked
    rw [hinflate, untouched]
    exact alike.inflated_eq body now random app
  have traced : app.traced m zipped = app.traced m' plain := by
    unfold App.traced
    rw [unpacked, h.alike.traceId_eq trace]
  have shared : app.shared m zipped = app.shared m' plain := by
    unfold App.shared
    have marking : ∀ origins, CrossOrigin.marked origins zipped = CrossOrigin.marked origins plain :=
      fun origins => funext (h.alike.marked_eq origins)
    simp only [traced, h.alike.isQuestion_eq, h.alike.answer_eq, marking]
  unfold App.handle
  rw [shared]

def loginBody : Bytes := (Text.ofString "\x7b\"login\":\"a\",\"master_password\":\"b\"\x7d").asciiBytes

def zippedBody : Bytes :=
  [31, 139, 8, 0, 0, 0, 0, 0, 2, 3, 171, 86, 202, 201, 79, 207, 204, 83, 178, 82, 74, 84, 210, 81, 202, 77, 44, 46,
    73, 45, 138, 47, 72, 44, 46, 46, 207, 47, 74, 1, 138, 38, 41, 213, 2, 0, 136, 9, 255, 166, 35, 0, 0, 0]

def plainLogin : Request :=
  { method := Text.ofString "POST"
    path := Text.ofString "/api/auth/login"
    headers := [
      (Text.ofString "content-type", Text.ofString "application/json"),
      (Text.ofString "content-length", Text.ofString "35"),
      (Text.ofString "x-trace-id", Text.ofString "t")]
    messages := [.body loginBody false] }

def zippedLogin : Request :=
  { plainLogin with
    headers := [
      (Text.ofString "content-type", Text.ofString "application/json"),
      (Text.ofString "content-encoding", Text.ofString "GZip"),
      (Text.ofString "content-length", Text.ofString "54"),
      (Text.ofString "x-trace-id", Text.ofString "t")]
    messages := [.body (zippedBody.take 12) true, .body (zippedBody.drop 12) false] }

theorem login_gzipped : Gzipped 35 plainLogin zippedLogin where
  method := rfl
  path := rfl
  query := rfl
  headers := ⟨[(Text.ofString "content-type", Text.ofString "application/json")], Text.ofString "GZip",
    [(Text.ofString "x-trace-id", Text.ofString "t")], by decide, by decide, by decide⟩
  uncoded := by decide
  body := by
    have inflated : (match Gzip.inflate 35 zippedBody with
        | .ok body => body == some loginBody
        | .error _ => false) = true := by decide +kernel
    refine ⟨loginBody, zippedBody, [], [], rfl, ?_, ?_⟩
    · decide +kernel
    · cases h : Gzip.inflate 35 zippedBody with
      | error e =>
        rw [h] at inflated
        cases inflated
      | ok body =>
        rw [h] at inflated
        rw [eq_of_beq inflated]

def narrowApp : App :=
  ⟨⟨{ secretKey := Text.ofString "k", maxInflatedBodySize := 35 }, none⟩, [.text (Text.ofString "/api")], some {}⟩

theorem login_gzip_transparent : Gzipped narrowApp.settings.maxInflatedBodySize plainLogin zippedLogin ∧
    (header? "x-trace-id" plainLogin.headers).getD [] ≠ [] ∧
    narrowApp.handle ⟨5, [7], [48]⟩ zippedLogin = narrowApp.handle ⟨5, [7], [49]⟩ plainLogin := by
  have trace : (header? "x-trace-id" plainLogin.headers).getD [] ≠ [] := by decide
  exact ⟨login_gzipped, trace, gzip_is_transparent login_gzipped rfl rfl (.inl trace)⟩

end Strongbox.Http
