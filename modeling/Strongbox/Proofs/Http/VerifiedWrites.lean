import Strongbox.Proofs.Http.Layers
import Strongbox.Proofs.Integrity.Gate
import Strongbox.Proofs.Vault.Effects

/-!
# Verified writes

A body that is to be written is read twice: by the integrity gate, which takes its bytes for a document of the
strict dialect, and by the endpoint, which asks for its media type, finds out its encoding and takes the lenient
dialect. Whenever both readings succeed they are the same; so what is written is what the hash covers.
-/

namespace Strongbox

namespace Vault.Batch

/-- The bytes that the hash of a batch covers. Deletions have no hash. -/
def form? : Batch → Option Bytes
  | upload request => Integrity.uploadForm? request.items
  | update request => Integrity.updateForm? request.items
  | delete _ => none

def hash? : Batch → Option Text
  | upload request => some request.hash
  | update request => some request.hash
  | delete _ => none

end Vault.Batch

namespace Http

open Vault

def Endpoint.checkBatch (e : Endpoint) (v : Json) : Schema.Checked Batch :=
  match e with
  | .upload => (Upload.check v).map .upload
  | .update => (Update.check v).map .update
  | .delete => (Deletion.check v).map .delete
  | _ => .error []

def Endpoint.gateReading (e : Endpoint) (body : Bytes) : Schema.Checked Batch :=
  Schema.document e.checkBatch body

def Endpoint.ownReading (e : Endpoint) (headers : Headers) (body : Bytes) : Except Problem Batch := do
  (← contentOf headers body).read e.checkBatch

theorem contentOf_document {headers : Headers} {body : Bytes} {v : Json}
    (h : contentOf headers body = .ok (.document v)) : Json.parseLenient body = .ok v := by
  unfold contentOf at h
  split at h
  · cases h
  split at h
  · split at h <;> cases h
    assumption
  · cases h

theorem read_ok {check : Json → Schema.Checked α} {content : Content} {x : α}
    (h : content.read check = .ok x) : ∃ v, content = .document v ∧ check v = .ok x := by
  cases content with
  | absent => cases h
  | raw => cases h
  | document v =>
    unfold Content.read at h
    simp only at h
    cases hc : check v with
    | error issues =>
      rw [hc] at h
      cases h
    | ok y =>
      rw [hc] at h
      cases h
      exact ⟨v, rfl, hc⟩

/-- What the gate and an endpoint both read is the same, whatever the headers say. -/
theorem readings_agree {e : Endpoint} {headers : Headers} {body : Bytes} {batch batch' : Batch}
    (hgate : e.gateReading body = .ok batch) (hown : e.ownReading headers body = .ok batch') :
    batch = batch' := by
  obtain ⟨v, hv, hbatch⟩ := Schema.document_ok.mp hgate
  obtain ⟨content, hcontent, hread⟩ := bind_eq_ok.mp hown
  obtain ⟨v', rfl, hbatch'⟩ := read_ok hread
  have lenient : Json.parseLenient body = .ok v' := contentOf_document hcontent
  rw [Json.parseLenient_of_parseStrict hv] at lenient
  cases lenient
  rw [hbatch] at hbatch'
  exact Except.ok.inj hbatch'

/-- A batch that passes the gate in one of its shapes brings the code of its items. -/
theorem checkBatch_reading {pool : HasherPool} {check : Json → Schema.Checked α} {form? : α → Option Bytes}
    {supplied : α → Text} {body : Bytes} (wrap : α → Batch) (hform : ∀ x, (wrap x).form? = form? x)
    (hhash : ∀ x, (wrap x).hash? = some (supplied x))
    (h : Integrity.checkBatch (some pool) check form? supplied body = .ok ()) :
    ∃ batch form, Schema.document (fun v => (check v).map wrap) body = .ok batch ∧ batch.form? = some form ∧
      batch.hash? = some (Hex.encode (pool.digest form).1) := by
  obtain ⟨request, form, hd, hf, hcode⟩ := Integrity.checkBatch_ok h
  obtain ⟨v, hv, hc⟩ := Schema.document_ok.mp hd
  have reading : Schema.document (fun v => (check v).map wrap) body = .ok (wrap request) :=
    Schema.document_ok.mpr ⟨v, hv, map_eq_ok.mpr ⟨request, hc, rfl⟩⟩
  exact ⟨wrap request, form, reading, (hform request).trans hf, (hhash request).trans (congrArg some hcode)⟩

theorem read_wrapped {check : Json → Schema.Checked α} {content : Content} {request : α} (wrap : α → Batch)
    (h : content.read check = .ok request) :
    content.read (fun v => (check v).map wrap) = .ok (wrap request) := by
  obtain ⟨v, rfl, hv⟩ := read_ok h
  simp only [Content.read, hv, Except.map]

namespace Service

variable {s : Service} {e : Endpoint}

theorem gate_ok {pool : HasherPool} {body : Bytes} (he : e = .upload ∨ e = .update) (hs : s.pool = some pool)
    (h : s.gate e body = .ok ()) :
    ∃ batch form, e.gateReading body = .ok batch ∧ batch.form? = some form ∧
      batch.hash? = some (Hex.encode (pool.digest form).1) := by
  rcases he with rfl | rfl
  · have passed : Integrity.checkUpload s.pool body = .ok () := mapError_eq_ok.mp h
    rw [hs] at passed
    exact checkBatch_reading .upload (fun _ => rfl) (fun _ => rfl) passed
  · have passed : Integrity.checkUpdate s.pool body = .ok () := mapError_eq_ok.mp h
    rw [hs] at passed
    exact checkBatch_reading .update (fun _ => rfl) (fun _ => rfl) passed

theorem task_call {random body : Bytes} {user : Int} {headers : Headers} {content : Content} {call : Call}
    (he : e = .upload ∨ e = .update) (hc : contentOf headers body = .ok content)
    (h : s.task random user content e = .ok (.call call)) :
    ∃ batch, e.ownReading headers body = .ok batch ∧ call = batch.call user := by
  rcases he with rfl | rfl
  · obtain ⟨request, hr, hcall⟩ := bind_eq_ok.mp h
    cases hcall
    exact ⟨.upload request, bind_eq_ok.mpr ⟨content, hc, read_wrapped .upload hr⟩, rfl⟩
  · obtain ⟨request, hr, hcall⟩ := bind_eq_ok.mp h
    cases hcall
    exact ⟨.update request, bind_eq_ok.mpr ⟨content, hc, read_wrapped .update hr⟩, rfl⟩

/-- What is written when a request to write a batch changes the database. -/
theorem serve_batch {pool : HasherPool} {m : Moment} {r : Request} {db : Database}
    (he : e = .upload ∨ e = .update) (hs : s.pool = some pool) (h : (s.serve m e r db).2 ≠ db) :
    ∃ body user batch form t, r.body = .ok body ∧
      Token.authenticate s.settings m.now (header? "authorization" r.headers) = .ok user ∧
      e.gateReading body = .ok batch ∧ e.ownReading r.headers body = .ok batch ∧ batch.form? = some form ∧
      batch.hash? = some (Hex.encode (pool.digest form).1) ∧ db = some t ∧
      ∃ u, Accepts user batch.named ((batch.call user).deeds m.now) t u ∧ (s.serve m e r db).2 = some u := by
  obtain ⟨call, answer, left, hp, hx, hdb⟩ := serve_database_changed h
  have takes : e.takesBody = true := by rcases he with rfl | rfl <;> rfl
  have guarded : e.isGuarded = true := by rcases he with rfl | rfl <;> rfl
  obtain ⟨body, content, user, hbody, hcontent, huser, hgate, htask⟩ := prepare_ok takes guarded hp
  obtain ⟨batch, form, hread, hform, hhash⟩ := gate_ok he hs hgate
  obtain ⟨batch', hown, rfl⟩ := task_call he hcontent htask
  -- what is written is what the gate has read
  obtain rfl := readings_agree hread hown
  rw [hdb] at h ⊢
  cases db with
  | none =>
    -- without tables a batch leaves none
    exact absurd (Store.Routine.eval_visible_none hx rfl) h
  | some t =>
    obtain ⟨u, hu, haccepts⟩ := (batch.lands user m.now).eval rfl rfl hx
    exact ⟨body, user, batch, form, t, hbody, mapError_eq_ok.mp huser, hread, hown, hform, hhash, rfl, u,
      haccepts, hu⟩

end Service

/-- A request to create or to revise records changes the database only if its token is that of a user, its body
is a batch for this user, and the hash in it is the code of its items under the integrity key. What it does then
are the deeds of this batch. The batch is the one that the gate has read: whatever the gate and the endpoint both
read is the same. -/
theorem verified_writes {s : Settings} {initial db : Database} {app : App} {m : Moment} {r : Request}
    {e : Endpoint} (hstart : App.start s initial = .ok app) (he : e = .upload ∨ e = .update)
    (hroute : Route.find app.base r.method r.path = .served e)
    (hchanged : (App.handle { app with database := db } m r).2.database ≠ db) :
    (∃ received body user batch key form t,
      app.received? r = some received ∧ received.body = .ok body ∧
      Token.authenticate s m.now (header? "authorization" r.headers) = .ok user ∧ batch.named = some user ∧
      e.gateReading body = .ok batch ∧ e.ownReading received.headers body = .ok batch ∧
      Utf8.encode? s.integrityHashKey = some key ∧ batch.form? = some form ∧
      batch.hash? = some (Hex.encode (Hmac.code .sha256 key form)) ∧
      db = some t ∧ Deed.AllEnabled t.records ((batch.call user).deeds m.now) ∧
      (App.handle { app with database := db } m r).2.database =
        some { t with records := Deed.performAll t.records ((batch.call user).deeds m.now) }) ∧
    ∀ headers body batch batch', e.gateReading body = .ok batch → e.ownReading headers body = .ok batch' →
      batch = batch' := by
  refine ⟨?_, fun _ _ _ _ => readings_agree⟩
  obtain ⟨pool, hservice, hpool, _⟩ := App.start_ok hstart
  obtain ⟨key, hkey, hcode⟩ := HasherPool.digest_ofKey hpool
  obtain ⟨received, hreceived, hdb⟩ := App.handle_database_changed hchanged
  obtain ⟨hmethod, hpath⟩ := App.received?_target hreceived
  rw [← hmethod, ← hpath] at hroute
  have hserved : (App.handle { app with database := db } m r).2.database =
      (app.service.serve m e received db).2 :=
    hdb.trans (App.routed_served { app with database := db } hroute)
  rw [hserved] at hchanged ⊢
  rw [hservice] at hchanged ⊢
  obtain ⟨body, user, batch, form, t, hbody, huser, hgate, hown, hform, hhash, rfl, u, ⟨hnamed, henabled, rfl⟩,
    hu⟩ := Service.serve_batch he rfl hchanged
  rw [App.received?_authorization hreceived] at huser
  rw [hcode] at hhash
  exact ⟨received, body, user, batch, key, form, t, hreceived, hbody, huser, hnamed, hgate, hown, hkey, hform,
    hhash, rfl, henabled, hu⟩

def sampleSettings : Settings :=
  { secretKey := Text.ofString "k", integrityHashKey := Text.ofString "i", corsOrigins := [], hasherPoolSize := 0 }

def sampleMoment : Moment := ⟨5, [], []⟩

def sampleUpload : Request :=
  { method := Text.ofString "POST"
    path := Text.ofString "/api/data/"
    headers := [
      (Text.ofString "authorization", Text.ofString <|
        "Bearer eyJhbGciOiJIUzI1NiIsInR5cCI6IkpXVCJ9" ++
        ".eyJpc3MiOiJwYXNzdmF1bHQiLCJzdWIiOiIxIiwiaWF0IjowLCJleHAiOjM2MDB9" ++
        ".DhbHXfIPkyOIhAX22vKPhoEvhy9CtrAFxnnhvsHxC68"),
      (Text.ofString "content-type", Text.ofString "application/json")]
    messages := [.body (Text.ofString <|
      "\x7b\"user_id\":1,\"payload_list\":[\x7b\"client_side_id\":\"a\",\"payload\":\"b\",\"hash\":\"c\"\x7d]," ++
      "\"hash\":\"86ad4adf7ac39925a1d8a216cf8427f8f2967dc533762271b822cdc746d53c24\"\x7d").asciiBytes false] }

theorem verified_sample_upload : ∃ app, App.start sampleSettings none = .ok app ∧
    Route.find app.base sampleUpload.method sampleUpload.path = .served .upload ∧
    (App.handle { app with database := some {} } sampleMoment sampleUpload).2.database ≠ some {} ∧
    ∃ user, Token.authenticate sampleSettings sampleMoment.now (header? "authorization" sampleUpload.headers) =
      .ok user := by
  have facts : (match App.start sampleSettings none with
      | .error _ => false
      | .ok app => Route.find app.base sampleUpload.method sampleUpload.path == .served .upload &&
        (App.handle { app with database := some {} } sampleMoment sampleUpload).2.database != some {}) = true := by
    decide +kernel
  cases hstart : App.start sampleSettings none with
  | error e =>
    rw [hstart] at facts
    cases facts
  | ok app =>
    rw [hstart] at facts
    obtain ⟨hroute, hchanged⟩ := Bool.and_eq_true_iff.mp facts
    have route : Route.find app.base sampleUpload.method sampleUpload.path = .served .upload := eq_of_beq hroute
    have changed : (App.handle { app with database := some {} } sampleMoment sampleUpload).2.database ≠ some {} :=
      bne_iff_ne.mp hchanged
    obtain ⟨⟨_, _, user, _, _, _, _, _, _, huser, _⟩, _⟩ := verified_writes hstart (.inl rfl) route changed
    exact ⟨app, rfl, route, changed, user, huser⟩

end Http

end Strongbox
