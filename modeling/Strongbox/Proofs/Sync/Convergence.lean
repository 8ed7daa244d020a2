import Strongbox.Proofs.Sync.Feasibility

/-!
# Reconciliation in one round

A client asks for a plan, pushes its side of it, in batches and in any order, and takes over the server's states of
all records that the plan names. Then the two sides agree. Each record is in one bucket at most, so the batches
do not get in each other's way.
-/

namespace Strongbox

namespace Vault.Deed

variable {d e : Deed} {deeds : List Deed} {rows : List Record}

theorem isOf_of_key_ne (h : d.key ≠ e.key) : d.isOf e.owner e.act.recordId = false := by
  refine Bool.eq_false_iff.mpr ?_
  intro hd
  obtain ⟨ho, hi⟩ := isOf_iff.mp hd
  exact h (Prod.ext ho hi)

theorem enabled_ofKey :
    e.Enabled rows ↔ e.Enabled (Record.ofKey e.owner e.act.recordId rows) := by
  have twice : Record.ofKey e.owner e.act.recordId (Record.ofKey e.owner e.act.recordId rows) =
      Record.ofKey e.owner e.act.recordId rows := by simp [Record.ofKey]
  cases he : e.act.isCreation with
  | true => rw [enabled_creation he, enabled_creation he, twice]
  | false =>
    rw [enabled_write he, enabled_write he]
    constructor
    · rintro ⟨r, hr, hit⟩
      obtain ⟨⟨hu, hi⟩, _⟩ := hits_iff.mp hit
      exact ⟨r, Record.mem_ofKey.mpr ⟨hr, hu, hi⟩, hit⟩
    · rintro ⟨r, hr, hit⟩
      exact ⟨r, (Record.mem_ofKey.mp hr).1, hit⟩

theorem enabled_perform_other (h : d.key ≠ e.key) (he : e.Enabled rows) : e.Enabled (d.perform rows) := by
  rw [enabled_ofKey, ofKey_other (isOf_of_key_ne h)]
  exact enabled_ofKey.mp he

/-- Deeds about different records that may each be done may all be done. -/
theorem allEnabled_of_distinct (nodup : (deeds.map key).Nodup) (each : ∀ d ∈ deeds, d.Enabled rows) :
    AllEnabled rows deeds := by
  induction deeds generalizing rows with
  | nil => trivial
  | cons d rest ih =>
    obtain ⟨hne, nodup⟩ := List.nodup_cons.mp nodup
    refine ⟨each d List.mem_cons_self, ih nodup ?_⟩
    intro e he
    have differs : d.key ≠ e.key := by
      intro same
      exact hne (List.mem_map.mpr ⟨e, he, same.symm⟩)
    exact enabled_perform_other differs (each e (List.mem_cons_of_mem _ he))

end Vault.Deed

namespace Sync

open Keyed Vault Store

variable {user now : Int} {t : Tables} {payload : Text → Text} {p : Plan} {d : Descriptor} {recordId : Text}
  {states servers clients : List Descriptor} {ids : List Text} {batch : Batch} {e : Deed}

def newRecord (payload : Text → Text) (d : Descriptor) : NewRecord :=
  { recordId := d.recordId, payload := payload d.recordId, hash := d.hash }

def storedVersion? (user : Int) (t : Tables) (d : Descriptor) : Option Int :=
  (t.find? user d.recordId).map (·.version)

def revision (user : Int) (t : Tables) (payload : Text → Text) (d : Descriptor) : Revision :=
  { recordId := d.recordId, payload := payload d.recordId, hash := d.hash
    version := storedVersion? user t d }

def removal (user : Int) (t : Tables) (d : Descriptor) : Removal :=
  { recordId := d.recordId, version := storedVersion? user t d }

/-- The batches of a client that carries out its part of a plan: one for each bucket with records in it. -/
def pushes (user : Int) (t : Tables) (payload : Text → Text) (p : Plan) : List Batch :=
  (if p.upload.isEmpty then []
    else [.upload { userId := some user, items := p.upload.map (newRecord payload) }]) ++
  (if p.update.isEmpty then []
    else [.update { userId := some user, items := p.update.map (revision user t payload) }]) ++
  (if p.deleteServer.isEmpty then []
    else [.delete { userId := some user, entries := p.deleteServer.map (removal user t) }])

/-- The client's states once it took over the server's of some records: in the place of its own, or at the end if
it had none. -/
def adopt (servers : List Descriptor) (ids : List Text) (clients : List Descriptor) : List Descriptor :=
  (clients.map fun c => if ids.contains c.recordId then (last? c.recordId servers).getD c else c) ++
    servers.filter fun s => ids.contains s.recordId && (last? s.recordId clients).isNone

theorem recordId_adopted (c : Descriptor) :
    (if ids.contains c.recordId then (last? c.recordId servers).getD c else c).recordId = c.recordId := by
  split
  · cases h : last? c.recordId servers with
    | none => rfl
    | some s => exact key_of_last? h
  · rfl

theorem mem_adopt (h : d ∈ adopt servers ids clients) :
    d ∈ servers ∨ ∃ c ∈ clients, c.recordId = d.recordId := by
  rcases List.mem_append.mp h with h | h
  · obtain ⟨c, hc, rfl⟩ := List.mem_map.mp h
    exact .inr ⟨c, hc, (recordId_adopted c).symm⟩
  · exact .inl (List.mem_filter.mp h).1

theorem last?_adopt : last? recordId (adopt servers ids clients) =
    if ids.contains recordId then (last? recordId servers).or (last? recordId clients)
    else last? recordId clients := by
  have news : last? recordId
        (servers.filter fun s => ids.contains s.recordId && (last? s.recordId clients).isNone) =
      if ids.contains recordId && (last? recordId clients).isNone then last? recordId servers else none :=
    last?_filter (fun i => ids.contains i && (last? i clients).isNone) servers
  rw [adopt, last?_append, last?_map recordId_adopted, news]
  cases hc : last? recordId clients with
  | none => by_cases hid : recordId ∈ ids <;> simp [hid]
  | some c =>
    have own : c.recordId = recordId := key_of_last? hc
    by_cases hid : recordId ∈ ids
    · cases hs : last? recordId servers with
      | none => simp [own, hid, hs]
      | some s => simp [own, hid, hs]
    · simp [own, hid]

/-- What a client may hold, and push, so that nothing is refused. -/
structure Reconcilable (user : Int) (t : Tables) (payload : Text → Text) (states : List Descriptor) : Prop where
  filled : ∀ d ∈ states, d.recordId.Filled ∧ d.hash.Filled
  /-- The client is not ahead of a tombstone. -/
  behind : ∀ d ∈ states, ∀ r, t.find? user d.recordId = some r → r.deleted = true → d.version ≤ r.version
  small : ∀ r ∈ t.ofOwner user, r.version < 0x8000000000000000
  payloads : ∀ recordId, payload recordId ≠ [] ∧ (payload recordId).Encodable

theorem upload_entry (orderly : t.Orderly) (hd : d ∈ (plan (t.states user) states).upload) :
    t.find? user d.recordId = none ∧ d ∈ states := by
  obtain ⟨hlast, _, unknown⟩ := classify_iff.mp ((mem_bucket_states orderly (b := .upload)).mp hd)
  exact ⟨by simpa using unknown, mem_of_last? hlast⟩

/-- What is updated or deleted is live, and can be written at its version. -/
theorem push_entry (orderly : t.Orderly) (h : Reconcilable user t payload states) {b : Bucket}
    (hb : b = .update ∨ b = .deleteServer) (hd : d ∈ (plan (t.states user) states).bucket b) :
    d ∈ states ∧ ∃ r, t.find? user d.recordId = some r ∧ r.deleted = false ∧ IsVersion r.version := by
  obtain ⟨s, hs, hlast, ahead⟩ := classify_eq_push hb ((mem_bucket_states orderly).mp hd)
  obtain ⟨r, hr, rfl⟩ := Option.map_eq_some_iff.mp hs
  have mem : r ∈ t.records := List.mem_of_find?_eq_some hr
  have own : r.userId = user := (Record.isOf_iff.mp (List.find?_some hr)).1
  have hstates := mem_of_last? hlast
  refine ⟨hstates, r, hr, Bool.eq_false_iff.mpr ?_, ?_⟩
  · intro gone
    have notAhead := h.behind d hstates r hr gone
    have := ahead gone
    simp only [Record.descriptor] at this
    omega
  · exact ⟨(orderly.legible r mem).counted, h.small r (List.mem_filter.mpr ⟨mem, by simpa using own⟩)⟩

theorem mem_pushes (h : batch ∈ pushes user t payload p) :
    p.upload ≠ [] ∧ batch = .upload { userId := some user, items := p.upload.map (newRecord payload) } ∨
      p.update ≠ [] ∧ batch = .update { userId := some user, items := p.update.map (revision user t payload) } ∨
      p.deleteServer ≠ [] ∧
        batch = .delete { userId := some user, entries := p.deleteServer.map (removal user t) } := by
  have chosen : ∀ {ds : List Descriptor} {b : Batch}, batch ∈ (if ds.isEmpty then [] else [b]) →
      ds ≠ [] ∧ batch = b := by
    intro ds b hb
    cases ds with
    | nil => cases hb
    | cons d rest => exact ⟨List.cons_ne_nil d rest, List.mem_singleton.mp hb⟩
  unfold pushes at h
  rcases List.mem_append.mp h with h | h
  · rcases List.mem_append.mp h with h | h
    · exact .inl (chosen h)
    · exact .inr (.inl (chosen h))
  · exact .inr (.inr (chosen h))

theorem pushes_proper (orderly : t.Orderly) (h : Reconcilable user t payload states)
    (hb : batch ∈ pushes user t payload (plan (t.states user) states)) : batch.Proper user := by
  have version : ∀ d r, t.find? user d.recordId = some r → IsVersion r.version →
      ∃ version, storedVersion? user t d = some version ∧ IsVersion version := by
    intro d r hr hv
    exact ⟨r.version, by simp [storedVersion?, hr], hv⟩
  rcases mem_pushes hb with ⟨hne, rfl⟩ | ⟨hne, rfl⟩ | ⟨hne, rfl⟩
  · refine ⟨rfl, by simpa using hne, ?_⟩
    intro item hi
    obtain ⟨d, hd, rfl⟩ := List.mem_map.mp hi
    obtain ⟨_, hstates⟩ := upload_entry orderly hd
    exact ⟨(h.filled d hstates).1, h.payloads _, (h.filled d hstates).2⟩
  · refine ⟨rfl, by simpa using hne, ?_⟩
    intro item hi
    obtain ⟨d, hd, rfl⟩ := List.mem_map.mp hi
    obtain ⟨hstates, r, hr, _, hv⟩ := push_entry orderly h (.inl rfl) (b := .update) hd
    exact Revision.proper_iff.mpr
      ⟨(h.filled d hstates).1, ⟨h.payloads _, (h.filled d hstates).2⟩, version d r hr hv⟩
  · refine ⟨rfl, by simpa using hne, ?_⟩
    intro item hi
    obtain ⟨d, hd, rfl⟩ := List.mem_map.mp hi
    obtain ⟨hstates, r, hr, _, hv⟩ := push_entry orderly h (.inr rfl) (b := .deleteServer) hd
    exact ⟨(h.filled d hstates).1, nofun, version d r hr hv⟩

theorem pushes_enabled (orderly : t.Orderly) (h : Reconcilable user t payload states)
    (hb : batch ∈ pushes user t payload (plan (t.states user) states))
    (he : e ∈ (batch.call user).deeds now) : e.Enabled t.records := by
  have written : ∀ {b : Bucket} {d : Descriptor} {item : Amendment}, b = .update ∨ b = .deleteServer →
      d ∈ (plan (t.states user) states).bucket b → item.recordId = d.recordId →
      item.version = storedVersion? user t d → (⟨user, now, .amend item⟩ : Deed).Enabled t.records := by
    intro b d item hb hd recordId version
    obtain ⟨_, r, hr, live, _⟩ := push_entry orderly h hb hd
    have stored : storedVersion? user t d = some r.version := by
      rw [storedVersion?, hr]
      rfl
    rw [← recordId] at hr
    exact enabled_of_find? rfl hr live (version.trans stored)
  rcases mem_pushes hb with ⟨_, rfl⟩ | ⟨_, rfl⟩ | ⟨_, rfl⟩
  · obtain ⟨item, hi, rfl⟩ := List.mem_map.mp he
    obtain ⟨d, hd, rfl⟩ := List.mem_map.mp hi
    obtain ⟨unknown, _⟩ := upload_entry orderly hd
    apply (Deed.enabled_creation rfl).mpr
    rwa [Tables.find?_eq_head?, List.head?_eq_none_iff] at unknown
  · obtain ⟨_, hamendment, rfl⟩ := List.mem_map.mp he
    obtain ⟨_, hitem, rfl⟩ := List.mem_map.mp hamendment
    obtain ⟨d, hd, rfl⟩ := List.mem_map.mp hitem
    exact written (b := .update) (.inl rfl) hd rfl rfl
  · obtain ⟨_, hamendment, rfl⟩ := List.mem_map.mp he
    obtain ⟨_, hitem, rfl⟩ := List.mem_map.mp hamendment
    obtain ⟨d, hd, rfl⟩ := List.mem_map.mp hitem
    exact written (b := .deleteServer) (.inr rfl) hd rfl rfl

theorem keys_deeds (call : Call) (now : Int) :
    (call.deeds now).map Deed.key = (call.deeds 0).map Deed.key := by
  cases call with
  | upload caller request => simp only [Call.deeds, keys_batch fun _ => rfl]
  | update caller request => simp only [Call.deeds, keys_batch fun _ => rfl]
  | delete caller request => simp only [Call.deeds, keys_batch fun _ => rfl]
  | _ => rfl

theorem keys_pushes (user : Int) (t : Tables) (payload : Text → Text) (p : Plan) :
    ((pushes user t payload p).map (Batch.call user)).flatMap (fun call => (call.deeds 0).map Deed.key) =
      ([.upload, .update, .deleteServer].flatMap fun b => (p.bucket b).map (·.recordId)).map (user, ·) := by
  have each : ∀ (ds : List Descriptor) (b : Batch),
      ((b.call user).deeds 0).map Deed.key = (ds.map (·.recordId)).map (user, ·) →
      ((if ds.isEmpty then [] else [b]).map (Batch.call user)).flatMap
        (fun call => (call.deeds 0).map Deed.key) = (ds.map (·.recordId)).map (user, ·) := by
    intro ds b hb
    cases ds with
    | nil => rfl
    | cons d rest => simpa using hb
  unfold pushes
  rw [List.map_append, List.map_append, List.flatMap_append, List.flatMap_append, each, each, each]
  · simp [Plan.bucket]
  · simp [Batch.call, Call.deeds, Deed.batch, Deed.key, Act.recordId, Removal.amendment, removal, Function.comp_def]
  · simp [Batch.call, Call.deeds, Deed.batch, Deed.key, Act.recordId, Revision.amendment, revision, Function.comp_def]
  · simp [Batch.call, Call.deeds, Deed.batch, Deed.key, Act.recordId, newRecord, Function.comp_def]

/-- Calm visits that push a plan, in any order. -/
structure Round (user : Int) (t : Tables) (payload : Text → Text) (p : Plan) (visits : List Visit) : Prop where
  calm : ∀ x ∈ visits, x.Calm
  calls : (visits.map (·.call)).Perm ((pushes user t payload p).map (Batch.call user))

variable {visits : List Visit}

theorem Round.pushed (round : Round user t payload p visits) {x : Visit} (hx : x ∈ visits) :
    ∃ batch ∈ pushes user t payload p, x.call = batch.call user := by
  obtain ⟨batch, hb, same⟩ := List.mem_map.mp (round.calls.mem_iff.mp (List.mem_map_of_mem hx))
  exact ⟨batch, hb, same.symm⟩

def deedsOf (visits : List Visit) : List Deed := visits.flatMap fun x => x.call.deeds x.now

theorem Round.deed (round : Round user t payload p visits) (he : e ∈ deedsOf visits) :
    ∃ batch ∈ pushes user t payload p, ∃ now, e ∈ (batch.call user).deeds now := by
  obtain ⟨x, hx, he⟩ := List.mem_flatMap.mp he
  obtain ⟨batch, hb, hcall⟩ := round.pushed hx
  rw [hcall] at he
  exact ⟨batch, hb, x.now, he⟩

theorem Round.keys (round : Round user t payload p visits) : ((deedsOf visits).map Deed.key).Perm
    (([.upload, .update, .deleteServer].flatMap fun b => (p.bucket b).map (·.recordId)).map (user, ·)) := by
  have untimed : (deedsOf visits).map Deed.key =
      (visits.map (·.call)).flatMap fun call => (call.deeds 0).map Deed.key := by
    unfold deedsOf
    rw [List.map_flatMap, List.flatMap_map]
    congr 1
    funext x
    exact keys_deeds x.call x.now
  rw [untimed, ← keys_pushes user t payload p]
  exact round.calls.flatMap_right _

section

variable (orderly : t.Orderly) (h : Reconcilable user t payload states)
  (round : Round user t payload (plan (t.states user) states) visits)

include orderly h round

theorem Round.allEnabled : Deed.AllEnabled t.records (deedsOf visits) := by
  apply Deed.allEnabled_of_distinct
  · rw [round.keys.nodup_iff]
    have ids : ([.upload, .update, .deleteServer].flatMap fun b =>
        ((plan (t.states user) states).bucket b).map (·.recordId)).Nodup := nodup_buckets (by decide)
    refine List.pairwise_map.mpr (ids.imp ?_)
    intro i j differ same
    exact differ (congrArg Prod.snd same)
  · intro e he
    obtain ⟨batch, hb, now, he⟩ := round.deed he
    exact pushes_enabled orderly h hb he

theorem Round.succeeds (hu : IsUserId user) : Visit.Succeed (some t) visits
    (some { t with records := Deed.performAll t.records (deedsOf visits) }) := by
  refine Visit.succeed_of_allEnabled hu round.calm ?_ (round.allEnabled orderly h)
  intro x hx
  obtain ⟨batch, hb, hcall⟩ := round.pushed hx
  exact ⟨batch, pushes_proper orderly h hb, hcall⟩

end

def pushedTables (t : Tables) (visits : List Visit) : Tables :=
  { t with records := Deed.performAll t.records (deedsOf visits) }

theorem Round.untouched (round : Round user t payload p visits) (h : recordId ∉ p.recordIds) :
    (pushedTables t visits).find? user recordId = t.find? user recordId := by
  rw [Tables.find?_eq_head?, Tables.find?_eq_head?, pushedTables, Deed.ofKey_performAll]
  intro e he
  refine Bool.eq_false_iff.mpr ?_
  intro own
  obtain ⟨howner, hid⟩ := Deed.isOf_iff.mp own
  have key := round.keys.mem_iff.mp (List.mem_map_of_mem he)
  obtain ⟨i, hi, hkey⟩ := List.mem_map.mp key
  obtain ⟨b, _, hi⟩ := List.mem_flatMap.mp hi
  obtain ⟨d, hd, rfl⟩ := List.mem_map.mp hi
  refine h (Plan.mem_recordIds.mpr ⟨b, d, hd, ?_⟩)
  exact (congrArg Prod.snd hkey).trans hid

section

variable (orderly : t.Orderly) (h : Reconcilable user t payload states)
  (round : Round user t payload (plan (t.states user) states) visits)

include orderly h round

theorem Round.pushed_orderly : (pushedTables t visits).Orderly := by
  apply orderly.performAll (round.allEnabled orderly h)
  intro e he
  obtain ⟨x, hx, he⟩ := List.mem_flatMap.mp he
  obtain ⟨batch, hb, hcall⟩ := round.pushed hx
  rw [hcall] at he
  exact (pushes_proper orderly h hb).legible (round.calm x hx).dated e he

/-- After the round, the server has a record of each id that the plan names. -/
theorem Round.known (hid : recordId ∈ (plan (t.states user) states).recordIds) :
    ∃ r, (pushedTables t visits).find? user recordId = some r := by
  rw [Tables.find?_isSome_iff, pushedTables, keys_performAll, List.mem_append]
  by_cases before : (user, recordId) ∈ t.records.map Record.key
  · exact .inl before
  · right
    have pushed : (user, recordId) ∈ (deedsOf visits).map Deed.key := by
      obtain ⟨b, d, hd, rfl⟩ := Plan.mem_recordIds.mp hid
      have takes := classify_iff.mp ((mem_bucket_states orderly).mp hd)
      have unknown : t.find? user d.recordId = none := by
        cases hr : t.find? user d.recordId with
        | none => rfl
        | some r => exact absurd (Tables.find?_isSome_iff.mp ⟨r, hr⟩) before
      rw [round.keys.mem_iff]
      refine List.mem_map_of_mem (List.mem_flatMap.mpr ⟨b, ?_, List.mem_map_of_mem hd⟩)
      cases b with
      | download => simp [unknown, Bucket.Takes] at takes
      | deleteClient => simp [unknown, Bucket.Takes] at takes
      | _ => decide
    obtain ⟨e, he, hkey⟩ := List.mem_map.mp pushed
    obtain ⟨batch, hb, now, hbatch⟩ := round.deed he
    have enabled := pushes_enabled orderly h hb hbatch
    refine List.mem_map.mpr ⟨e, List.mem_filter.mpr ⟨he, ?_⟩, hkey⟩
    -- only a creation is enabled where the record is not there
    cases creation : e.act.isCreation with
    | true => rfl
    | false =>
      obtain ⟨r, hr, hit⟩ := (Deed.enabled_write creation).mp enabled
      obtain ⟨⟨howner, hid⟩, _⟩ := Deed.hits_iff.mp hit
      have named : r.key = (user, recordId) := by
        rw [← hkey, Record.key, howner, hid]
        rfl
      exact absurd (List.mem_map.mpr ⟨r, hr, named⟩) before

/-- After the round, and once the client took the server's states over, nothing is left to do. -/
theorem Round.settled : plan ((pushedTables t visits).states user)
    (adopt ((pushedTables t visits).states user) (plan (t.states user) states).recordIds states) = {} := by
  have orderly' := round.pushed_orderly orderly h
  apply plan_eq_empty
  intro recordId
  rw [last?_adopt]
  by_cases hid : recordId ∈ (plan (t.states user) states).recordIds
  · obtain ⟨r, hr⟩ := round.known orderly h hid
    rw [if_pos (List.contains_iff_mem.mpr hid), last?_states (orderly'.single user recordId), hr]
    exact classifyBoth_self r.descriptor
  · have undecided := mt mem_recordIds.mpr hid
    rw [if_neg (mt List.contains_iff_mem.mp hid), last?_states (orderly'.single user recordId),
      round.untouched hid, ← last?_states (orderly.single user recordId)]
    simpa using undecided

end

/-- A client that is not ahead of a tombstone gets a plan. Pushing its side of it, in any order, succeeds, and once
the client took over the server's states of the records that the plan names, the next plan is empty. -/
theorem reconciliation_converges (reachable : t.Reachable) (hu : IsUserId user)
    (h : Reconcilable user t payload states) {x : Visit} (calm : x.Calm)
    (hx : x.call = .compare user ⟨some user, states⟩) :
    ∃ p, (x.ended (some t)).result = .ok (.plan p) ∧
      ∀ visits, Round user t payload p visits →
        ∃ t', Visit.Succeed (some t) visits (some t') ∧
          ∀ y : Visit, y.Calm →
            y.call = .compare user ⟨some user, adopt (t'.states user) p.recordIds states⟩ →
            (y.ended (some t')).result = .ok (.plan {}) := by
  have orderly := reachable_orderly reachable
  refine ⟨_, calm_compare hu (fun d hd => (h.filled d hd).1.nonblank) calm hx, ?_⟩
  intro visits round
  refine ⟨pushedTables t visits, round.succeeds orderly h hu, ?_⟩
  intro y hy hcall
  have orderly' := round.pushed_orderly orderly h
  rw [← round.settled orderly h]
  refine calm_compare hu ?_ hy hcall
  intro d hd
  rcases mem_adopt hd with hd | ⟨c, hc, same⟩
  · exact (orderly'.states_legible d hd).2
  · rw [← same]
    exact (h.filled c hc).1.nonblank

def sampleClient : List Descriptor := sampleStates ++ [⟨[98], [121], 0, false, none⟩]

theorem sample_reconcilable : Reconcilable 1 sampleTables (fun _ => [120]) sampleClient := by
  constructor
  · decide
  · have notAhead : ∀ d ∈ sampleClient, ∀ r ∈ sampleTables.records,
        r.deleted = true → d.version ≤ r.version := by decide
    intro d hd r hr
    exact notAhead d hd r (List.mem_of_find?_eq_some hr)
  · decide
  · exact fun _ => ⟨by decide, by decide⟩

def sampleRound : List Visit :=
  [sampleVisit (.delete 1 { userId := some 1, entries := [⟨[99], some 0⟩] }),
    sampleVisit (.update 1 { userId := some 1, items := [⟨[97], [120], [122], some 0⟩] }),
    sampleVisit (.upload 1 { userId := some 1, items := [⟨[100], [120], [121]⟩] })]

theorem sample_round_converges :
    ∃ p t', ((sampleVisit (.compare 1 ⟨some 1, sampleClient⟩)).ended (some sampleTables)).result =
        .ok (.plan p) ∧ Visit.Succeed (some sampleTables) sampleRound (some t') ∧
      ((sampleVisit (.compare 1 ⟨some 1, adopt (t'.states 1) p.recordIds sampleClient⟩)).ended
        (some t')).result = .ok (.plan {}) := by
  obtain ⟨p, planned, converges⟩ := reconciliation_converges sampleTables_reachable
    ⟨by decide, by decide⟩ sample_reconcilable (sampleVisit_calm (.compare 1 ⟨some 1, sampleClient⟩)) rfl
  have known : ((sampleVisit (.compare 1 ⟨some 1, sampleClient⟩)).ended (some sampleTables)).result =
      .ok (.plan (plan (sampleTables.states 1) sampleClient)) := rfl
  have same : p = plan (sampleTables.states 1) sampleClient := by
    have := planned.symm.trans known
    simpa using this
  have round : Round 1 sampleTables (fun _ => [120]) p sampleRound := by
    subst same
    constructor
    · intro x hx
      obtain ⟨call, rfl⟩ : ∃ call, x = sampleVisit call := by
        simp only [sampleRound, List.mem_cons, List.not_mem_nil, or_false] at hx
        rcases hx with rfl | rfl | rfl
        · exact ⟨_, rfl⟩
        · exact ⟨_, rfl⟩
        · exact ⟨_, rfl⟩
      exact sampleVisit_calm call
    · exact (List.reverse_perm _).symm
  obtain ⟨t', succeed, settled⟩ := converges sampleRound round
  exact ⟨p, t', planned, succeed, settled _ (sampleVisit_calm _) rfl⟩

end Sync

end Strongbox
