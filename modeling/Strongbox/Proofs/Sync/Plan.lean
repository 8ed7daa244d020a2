import Strongbox.Proofs.Keyed
import Strongbox.Sync.Classify

/-!
# What a plan says of a record

A plan decides about each record by itself: from the last state that either side has of it, if any.
-/

namespace Strongbox

namespace Plan

def bucket (p : Plan) : Sync.Bucket → List Descriptor
  | .download => p.download
  | .upload => p.upload
  | .update => p.update
  | .deleteClient => p.deleteClient
  | .deleteServer => p.deleteServer

def recordIds (p : Plan) : List Text :=
  (p.download ++ p.upload ++ p.update ++ p.deleteClient ++ p.deleteServer).map (·.recordId)

theorem mem_recordIds {p : Plan} {recordId : Text} :
    recordId ∈ p.recordIds ↔ ∃ b, ∃ d ∈ p.bucket b, d.recordId = recordId := by
  unfold recordIds
  rw [List.mem_map]
  constructor
  · rintro ⟨d, hd, rfl⟩
    simp only [List.mem_append] at hd
    rcases hd with (((hd | hd) | hd) | hd) | hd
    · exact ⟨.download, d, hd, rfl⟩
    · exact ⟨.upload, d, hd, rfl⟩
    · exact ⟨.update, d, hd, rfl⟩
    · exact ⟨.deleteClient, d, hd, rfl⟩
    · exact ⟨.deleteServer, d, hd, rfl⟩
  · rintro ⟨b, d, hd, rfl⟩
    refine ⟨d, ?_, rfl⟩
    simp only [List.mem_append]
    cases b with
    | download => exact .inl (.inl (.inl (.inl hd)))
    | upload => exact .inl (.inl (.inl (.inr hd)))
    | update => exact .inl (.inl (.inr hd))
    | deleteClient => exact .inl (.inr hd)
    | deleteServer => exact .inr hd

end Plan

namespace Sync

open Keyed

variable {recordId : Text} {d e : Descriptor} {states known servers clients : List Descriptor} {b : Bucket}

def classify : (server client : Option Descriptor) → Option (Bucket × Descriptor)
  | none, none => none
  | some server, none => if server.deleted then none else some (.download, server)
  | none, some client => if client.deleted then none else some (.upload, client)
  | some server, some client => classifyBoth server client

def Bucket.Takes (server client : Option Descriptor) (d : Descriptor) : Bucket → Prop
  | download => server = some d ∧ d.deleted = false ∧
    (client = none ∨ ∃ c, client = some c ∧ c.version < d.version)
  | upload => client = some d ∧ d.deleted = false ∧ server = none
  | update => client = some d ∧ d.deleted = false ∧ ∃ s, server = some s ∧
    (s.version < d.version ∨ s.version = d.version ∧ s.deleted = false ∧ s.hash ≠ d.hash)
  | deleteClient => server = some d ∧ d.deleted = true ∧ ∃ c, client = some c ∧
    (c.version < d.version ∨ c.version = d.version ∧ c.deleted = false)
  | deleteServer => client = some d ∧ d.deleted = true ∧ ∃ s, server = some s ∧
    (s.version < d.version ∨ s.version = d.version ∧ s.deleted = false)

theorem classifyBoth_iff {server client : Descriptor} :
    classifyBoth server client = some (b, d) ↔ b.Takes (some server) (some client) d := by
  unfold classifyBoth
  cases b <;> simp only [Bucket.Takes] <;> grind

theorem classify_iff {server client : Option Descriptor} :
    classify server client = some (b, d) ↔ b.Takes server client d := by
  cases server with
  | none =>
    cases client with
    | none => cases b <;> simp [classify, Bucket.Takes]
    | some c =>
      simp only [classify]
      cases b <;> simp only [Bucket.Takes] <;> grind
  | some s =>
    cases client with
    | none =>
      simp only [classify]
      cases b <;> simp only [Bucket.Takes] <;> grind
    | some c => exact classifyBoth_iff

theorem classifyBoth_self (d : Descriptor) : classifyBoth d d = none := by
  unfold classifyBoth
  cases h : d.deleted with
  | true => simp
  | false => simp

/-- The state that is put into a bucket is one of the two. -/
theorem mem_of_classify {server client : Option Descriptor} (h : classify server client = some (b, d)) :
    server = some d ∨ client = some d := by
  have takes := classify_iff.mp h
  cases b with
  | download => exact .inl takes.1
  | upload => exact .inr takes.1
  | update => exact .inr takes.1
  | deleteClient => exact .inl takes.1
  | deleteServer => exact .inr takes.1

/-- The client's state of a record is put forward against a live one of the server, or against a tombstone of a
lower version. -/
theorem classify_eq_push {server client : Option Descriptor} (hb : b = .update ∨ b = .deleteServer)
    (h : classify server client = some (b, d)) :
    ∃ s, server = some s ∧ client = some d ∧ (s.deleted = true → s.version < d.version) := by
  rcases hb with rfl | rfl
  · obtain ⟨own, _, s, known, newer | ⟨_, live, _⟩⟩ := classify_iff.mp h
    · exact ⟨s, known, own, fun _ => newer⟩
    · exact ⟨s, known, own, fun gone => absurd gone (Bool.eq_false_iff.mp live)⟩
  · obtain ⟨own, _, s, known, newer | ⟨_, live⟩⟩ := classify_iff.mp h
    · exact ⟨s, known, own, fun _ => newer⟩
    · exact ⟨s, known, own, fun gone => absurd gone (Bool.eq_false_iff.mp live)⟩

theorem recordId_of_classify
    (h : classify (last? recordId servers) (last? recordId clients) = some (b, d)) :
    d.recordId = recordId := by
  rcases mem_of_classify h with h | h
  · exact key_of_last? h
  · exact key_of_last? h

theorem classifyServer_eq (clients : List Descriptor) (server : Descriptor) :
    classifyServer (collect clients) server = classify (some server) (last? server.recordId clients) := by
  unfold classifyServer
  rw [find?_collect]
  cases last? server.recordId clients with
  | none => rfl
  | some client => rfl

theorem classifyClient_eq_some {client : Descriptor} :
    classifyClient (collect servers) client = some (b, d) ↔
      last? client.recordId servers = none ∧ classify none (some client) = some (b, d) := by
  unfold classifyClient
  rw [find?_collect]
  cases last? client.recordId servers with
  | none => simp [classify]
  | some server => simp

theorem mem_assignments : (b, d) ∈ assignments (collect servers) (collect clients) ↔
    classify (last? d.recordId servers) (last? d.recordId clients) = some (b, d) := by
  unfold assignments
  rw [List.mem_append, List.mem_filterMap, List.mem_filterMap]
  constructor
  · rintro (⟨s, hs, h⟩ | ⟨c, hc, h⟩)
    · rw [classifyServer_eq, ← mem_collect.mp hs] at h
      rw [recordId_of_classify h]
      exact h
    · obtain ⟨hnone, h⟩ := classifyClient_eq_some.mp h
      rw [← hnone, ← mem_collect.mp hc] at h
      rw [recordId_of_classify h]
      exact h
  · intro h
    cases hs : last? d.recordId servers with
    | some s =>
      have hid : s.recordId = d.recordId := key_of_last? hs
      refine .inl ⟨s, mem_collect_of_last? hs, ?_⟩
      rw [classifyServer_eq, hid, ← hs]
      exact h
    | none =>
      cases hc : last? d.recordId clients with
      | none =>
        rw [hs, hc] at h
        cases h
      | some c =>
        have hid : c.recordId = d.recordId := key_of_last? hc
        refine .inr ⟨c, mem_collect_of_last? hc, ?_⟩
        rw [hs, hc] at h
        exact classifyClient_eq_some.mpr ⟨by rw [hid, hs], h⟩

/-- A record is in a bucket if and only if the decision about it says so. -/
theorem mem_bucket : d ∈ (plan servers clients).bucket b ↔
    classify (last? d.recordId servers) (last? d.recordId clients) = some (b, d) := by
  rw [← mem_assignments]
  cases b <;> simp [plan, Plan.bucket, inBucket]

theorem mem_recordIds : recordId ∈ (plan servers clients).recordIds ↔
    (classify (last? recordId servers) (last? recordId clients)).isSome = true := by
  rw [Plan.mem_recordIds]
  constructor
  · rintro ⟨b, d, hd, rfl⟩
    rw [mem_bucket.mp hd]
    rfl
  · intro h
    obtain ⟨⟨b, d⟩, hd⟩ := Option.isSome_iff_exists.mp h
    obtain rfl := recordId_of_classify hd
    exact ⟨b, d, mem_bucket.mpr hd, rfl⟩

theorem plan_eq_empty
    (h : ∀ recordId, classify (last? recordId servers) (last? recordId clients) = none) :
    plan servers clients = {} := by
  have empty : ∀ b, (plan servers clients).bucket b = [] := by
    intro b
    rw [List.eq_nil_iff_forall_not_mem]
    intro d hd
    have := mem_bucket.mp hd
    rw [h d.recordId] at this
    cases this
  have download := empty .download
  have upload := empty .upload
  have update := empty .update
  have deleteClient := empty .deleteClient
  have deleteServer := empty .deleteServer
  generalize plan servers clients = p at *
  obtain ⟨d, u, m, c, s⟩ := p
  simp only [Plan.bucket] at download upload update deleteClient deleteServer
  rw [download, upload, update, deleteClient, deleteServer]

/-- Between a state and itself there is nothing to do. -/
theorem plan_self (states : List Descriptor) : plan states states = {} := by
  apply plan_eq_empty
  intro recordId
  cases last? recordId states with
  | none => rfl
  | some d => exact classifyBoth_self d

/-- A client that has nothing downloads all that is live. -/
theorem plan_without_client (nodup : (servers.map (·.recordId)).Nodup) :
    plan servers [] = { download := servers.filter (!·.deleted) } := by
  have work : assignments (collect servers) (collect []) = (servers.filter (!·.deleted)).map (Bucket.download, ·) := by
    rw [collect_of_nodup nodup, assignments]
    clear nodup
    induction servers with
    | nil => rfl
    | cons s rest ih =>
      cases hs : s.deleted <;> simpa [classifyServer, find?, collect, hs] using ih
  have chosen : ∀ b, inBucket b ((servers.filter (!·.deleted)).map (Bucket.download, ·)) =
      if b = .download then servers.filter (!·.deleted) else [] := by
    intro b
    rw [inBucket, List.filterMap_map, Function.comp_def]
    cases b <;> simp
  simp only [plan, work, chosen]
  simp

/-- What is kept of a list, with what it is kept for, comes in the order of the list. -/
theorem ids_filterMap_sublist {f : α → Option β} {p : α → γ} {q : β → γ}
    (hf : ∀ x y, f x = some y → q y = p x) (l : List α) : ((l.filterMap f).map q).Sublist (l.map p) := by
  induction l with
  | nil => exact List.Sublist.slnil
  | cons x rest ih =>
    cases h : f x with
    | none =>
      rw [List.filterMap_cons_none h, List.map_cons]
      exact ih.cons _
    | some y =>
      rw [List.filterMap_cons_some h, List.map_cons, List.map_cons, hf x y h]
      exact ih.cons_cons _

theorem nodup_assignments (servers clients : List Descriptor) :
    ((assignments (collect servers) (collect clients)).map (·.2.recordId)).Nodup := by
  have server : ∀ s p, classifyServer (collect clients) s = some p → p.2.recordId = s.recordId := by
    intro s p hp
    rw [classifyServer_eq] at hp
    rcases mem_of_classify hp with h | h
    · rw [Option.some.inj h]
    · exact key_of_last? h
  have client : ∀ c p, classifyClient (collect servers) c = some p → p.2.recordId = c.recordId := by
    intro c p hp
    rcases mem_of_classify (classifyClient_eq_some.mp hp).2 with h | h
    · cases h
    · rw [Option.some.inj h]
  unfold assignments
  rw [List.map_append, List.nodup_append]
  refine ⟨(ids_filterMap_sublist server _).nodup (nodup_collect servers),
    (ids_filterMap_sublist client _).nodup (nodup_collect clients), ?_⟩
  -- the client's own records are those that the server does not know
  intro i hi j hj
  obtain ⟨s, hs, rfl⟩ := List.mem_map.mp ((ids_filterMap_sublist server _).subset hi)
  obtain ⟨p, hp, rfl⟩ := List.mem_map.mp hj
  obtain ⟨c, _, hc⟩ := List.mem_filterMap.mp hp
  rintro same
  have unknown := (classifyClient_eq_some.mp hc).1
  rw [← client c p hc, ← same] at unknown
  exact absurd (unknown.symm.trans (mem_collect.mp hs)) nofun

theorem nodup_bucket (servers clients : List Descriptor) (b : Bucket) :
    (((plan servers clients).bucket b).map (·.recordId)).Nodup := by
  have chosen : (plan servers clients).bucket b = inBucket b (assignments (collect servers) (collect clients)) := by
    cases b <;> rfl
  rw [chosen]
  refine (ids_filterMap_sublist ?_ _).nodup (nodup_assignments servers clients)
  rintro ⟨bucket, d⟩ e he
  simp only [Option.ite_none_right_eq_some, Option.some.injEq] at he
  rw [he.2]

/-- No record is in two buckets. -/
theorem nodup_buckets {bs : List Bucket} (nodup : bs.Nodup) :
    (bs.flatMap fun b => ((plan servers clients).bucket b).map (·.recordId)).Nodup := by
  refine List.pairwise_flatMap.mpr ⟨fun b _ => nodup_bucket servers clients b, nodup.imp ?_⟩
  intro b b' differ i hi j hj same
  obtain ⟨d, hd, rfl⟩ := List.mem_map.mp hi
  obtain ⟨e, he, rfl⟩ := List.mem_map.mp hj
  have assigned := mem_bucket.mp he
  rw [← same, mem_bucket.mp hd] at assigned
  cases assigned
  exact differ rfl

end Sync

end Strongbox
