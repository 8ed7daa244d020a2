import Strongbox.Proofs.Sync.Plan

/-!
# The plan of two sides

Both sides are first condensed to one state of each record. Which bucket a state comes into is then decided by
presence, versions, tombstones and hashes, and the buckets keep the order of the side that is gone through.
-/

namespace Strongbox.Sync

open Keyed

variable {recordId : Text} {d : Descriptor} {states servers clients : List Descriptor} {b : Bucket}

/-- The last state of each record, at the place where the record is named first. -/
structure Condenses (states condensed : List Descriptor) : Prop where
  order : condensed.map (·.recordId) = (states.map (·.recordId)).eraseDups
  last : ∀ d ∈ condensed, last? d.recordId states = some d

theorem collect_condenses (states : List Descriptor) : Condenses states (collect states) where
  order := keys_collect states
  last _ h := mem_collect.mp h

theorem last?_eq_none_iff : last? recordId states = none ↔ ∀ d ∈ collect states, d.recordId ≠ recordId := by
  rw [← find?_collect]
  exact find?_eq_none

theorem exists_last? {p : Descriptor → Prop} :
    (∃ d, last? recordId states = some d ∧ p d) ↔ ∃ d ∈ collect states, d.recordId = recordId ∧ p d := by
  constructor
  · rintro ⟨d, hd, hp⟩
    exact ⟨d, mem_collect_of_last? hd, key_of_last? hd, hp⟩
  · rintro ⟨d, hd, rfl, hp⟩
    exact ⟨d, mem_collect.mp hd, hp⟩

theorem bucket_eq (servers clients : List Descriptor) (b : Bucket) : (plan servers clients).bucket b =
    inBucket b ((collect servers).filterMap (classifyServer (collect clients))) ++
      inBucket b ((collect clients).filterMap (classifyClient (collect servers))) := by
  have chosen : (plan servers clients).bucket b = inBucket b (assignments (collect servers) (collect clients)) := by
    cases b <;> rfl
  rw [chosen, assignments, inBucket, List.filterMap_append]
  rfl

/-- What goes through a list and chooses some of its states keeps their order. -/
theorem inBucket_sublist {f : Descriptor → Option (Bucket × Descriptor)} (p : Descriptor → α)
    (hf : ∀ e d, f e = some (b, d) → p d = p e) (known : List Descriptor) :
    ((inBucket b (known.filterMap f)).map p).Sublist (known.map p) := by
  rw [inBucket, List.filterMap_filterMap]
  refine ids_filterMap_sublist ?_ known
  intro e d h
  obtain ⟨⟨bucket, d'⟩, assigned, chosen⟩ := Option.bind_eq_some_iff.mp h
  simp only [Option.ite_none_right_eq_some, Option.some.injEq] at chosen
  obtain ⟨rfl, rfl⟩ := chosen
  exact hf e d' assigned

theorem inBucket_server_upload (servers clients : List Descriptor) :
    inBucket .upload (servers.filterMap (classifyServer (collect clients))) = [] := by
  rw [inBucket, List.filterMap_filterMap, List.filterMap_eq_nil_iff]
  intro s _
  rw [classifyServer_eq]
  cases h : classify (some s) (last? s.recordId clients) with
  | none => rfl
  | some assigned =>
    obtain ⟨bucket, d⟩ := assigned
    have other : bucket ≠ .upload := by
      rintro rfl
      exact Option.some_ne_none s (classify_iff.mp h).2.2
    simp [other]

theorem inBucket_client (servers clients : List Descriptor) (other : b ≠ .upload) :
    inBucket b (clients.filterMap (classifyClient (collect servers))) = [] := by
  rw [inBucket, List.filterMap_filterMap, List.filterMap_eq_nil_iff]
  intro c _
  cases h : classifyClient (collect servers) c with
  | none => rfl
  | some assigned =>
    obtain ⟨bucket, d⟩ := assigned
    have upload : bucket = .upload := by
      have alone := (classifyClient_eq_some.mp h).2
      simp only [classify, Option.ite_none_left_eq_some, Option.some.injEq, Prod.mk.injEq] at alone
      exact alone.2.1.symm
    simp [upload, Ne.symm other]

theorem bucket_server (servers clients : List Descriptor) (other : b ≠ .upload) :
    (plan servers clients).bucket b =
      inBucket b ((collect servers).filterMap (classifyServer (collect clients))) := by
  rw [bucket_eq, inBucket_client servers _ other, List.append_nil]

/-- A bucket of states of the server is a part of what the server has, in its order. -/
theorem bucket_sublist (other : b ≠ .upload)
    (own : ∀ {server client : Option Descriptor} {d}, classify server client = some (b, d) → server = some d) :
    ((plan servers clients).bucket b).Sublist (collect servers) := by
  have kept : ∀ s d, classifyServer (collect clients) s = some (b, d) → id d = id s := by
    intro s d h
    rw [classifyServer_eq] at h
    exact (Option.some.inj (own h)).symm
  have sublist := inBucket_sublist id kept (collect servers)
  rw [List.map_id, List.map_id] at sublist
  rw [bucket_server _ _ other]
  exact sublist

/-- A bucket of the client's states follows the order of the server. -/
theorem bucket_ids_sublist (other : b ≠ .upload) :
    (((plan servers clients).bucket b).map (·.recordId)).Sublist ((collect servers).map (·.recordId)) := by
  rw [bucket_server _ _ other]
  refine inBucket_sublist _ (fun s d h => ?_) _
  rw [classifyServer_eq] at h
  rcases mem_of_classify h with own | theirs
  · rw [Option.some.inj own]
  · exact key_of_last? theirs

theorem upload_sublist (servers clients : List Descriptor) :
    (plan servers clients).upload.Sublist (collect clients) := by
  have kept : ∀ c d, classifyClient (collect servers) c = some (.upload, d) → id d = id c := by
    intro c d h
    obtain ⟨_, alone⟩ := classifyClient_eq_some.mp h
    exact (Option.some.inj (classify_iff.mp alone).1).symm
  have sublist := inBucket_sublist id kept (collect clients)
  rw [List.map_id, List.map_id] at sublist
  have upload : (plan servers clients).upload = (plan servers clients).bucket .upload := rfl
  rw [upload, bucket_eq, inBucket_server_upload, List.nil_append]
  exact sublist

structure Classifies (p : Plan) (servers clients : List Descriptor) : Prop where
  once : p.recordIds.Nodup
  download : ∀ d, d ∈ p.download ↔ d ∈ servers ∧ d.deleted = false ∧
    ((∀ c ∈ clients, c.recordId ≠ d.recordId) ∨ ∃ c ∈ clients, c.recordId = d.recordId ∧ c.version < d.version)
  deleteClient : ∀ d, d ∈ p.deleteClient ↔ d ∈ servers ∧ d.deleted = true ∧
    ∃ c ∈ clients, c.recordId = d.recordId ∧
      (c.version < d.version ∨ c.version = d.version ∧ c.deleted = false)
  update : ∀ d, d ∈ p.update ↔ d ∈ clients ∧ d.deleted = false ∧
    ∃ s ∈ servers, s.recordId = d.recordId ∧
      (s.version < d.version ∨ s.version = d.version ∧ s.deleted = false ∧ s.hash ≠ d.hash)
  deleteServer : ∀ d, d ∈ p.deleteServer ↔ d ∈ clients ∧ d.deleted = true ∧
    ∃ s ∈ servers, s.recordId = d.recordId ∧
      (s.version < d.version ∨ s.version = d.version ∧ s.deleted = false)
  upload : ∀ d, d ∈ p.upload ↔ d ∈ clients ∧ d.deleted = false ∧ ∀ s ∈ servers, s.recordId ≠ d.recordId
  download_order : p.download.Sublist servers
  deleteClient_order : p.deleteClient.Sublist servers
  update_order : (p.update.map (·.recordId)).Sublist (servers.map (·.recordId))
  deleteServer_order : (p.deleteServer.map (·.recordId)).Sublist (servers.map (·.recordId))
  upload_order : p.upload.Sublist clients

theorem nodup_recordIds (servers clients : List Descriptor) : (plan servers clients).recordIds.Nodup := by
  have apart : ([Bucket.download, .upload, .update, .deleteClient, .deleteServer].flatMap fun b =>
      ((plan servers clients).bucket b).map (·.recordId)).Nodup := nodup_buckets (by decide)
  simpa [Plan.recordIds, Plan.bucket] using apart

/-- A plan condenses both sides and classifies what is left of them, exactly. -/
theorem plan_classifies (servers clients : List Descriptor) :
    Condenses servers (collect servers) ∧ Condenses clients (collect clients) ∧
      Classifies (plan servers clients) (collect servers) (collect clients) := by
  refine ⟨collect_condenses servers, collect_condenses clients, ?_⟩
  refine
    { once := nodup_recordIds servers clients
      download := ?_
      deleteClient := ?_
      update := ?_
      deleteServer := ?_
      upload := ?_
      download_order := bucket_sublist (b := .download) (by decide) fun h => (classify_iff.mp h).1
      deleteClient_order := bucket_sublist (b := .deleteClient) (by decide) fun h => (classify_iff.mp h).1
      update_order := bucket_ids_sublist (b := .update) (by decide)
      deleteServer_order := bucket_ids_sublist (b := .deleteServer) (by decide)
      upload_order := upload_sublist servers clients }
  · intro d
    rw [mem_collect, ← last?_eq_none_iff, ← exists_last?]
    exact (mem_bucket (b := .download)).trans classify_iff
  · intro d
    rw [mem_collect, ← exists_last?]
    exact (mem_bucket (b := .deleteClient)).trans classify_iff
  · intro d
    rw [mem_collect, ← exists_last?]
    exact (mem_bucket (b := .update)).trans classify_iff
  · intro d
    rw [mem_collect, ← exists_last?]
    exact (mem_bucket (b := .deleteServer)).trans classify_iff
  · intro d
    rw [mem_collect, ← last?_eq_none_iff]
    exact (mem_bucket (b := .upload)).trans classify_iff

end Strongbox.Sync
