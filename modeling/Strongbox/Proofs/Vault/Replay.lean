import Strongbox.Proofs.Vault.Concurrency

/-!
# The records as a replay

Whatever calls are made, and however they are interleaved, every field of every row can be read off the
deeds that were accepted, and there are no other rows. Numbers and tombstones are for good.
-/

namespace Strongbox

namespace Record

def key (r : Record) : Int × Text := (r.userId, r.recordId)

def numbered (r : Record) : (Int × Text) × Int := (r.key, r.serverId)

theorem key_eq_iff {owner : Int} {recordId : Text} {r : Record} :
    r.key = (owner, recordId) ↔ r.isOf owner recordId = true := by
  rw [isOf_iff]
  simp [key]

theorem ofKey_eq_nil_iff {owner : Int} {recordId : Text} {rows : List Record} :
    ofKey owner recordId rows = [] ↔ (owner, recordId) ∉ rows.map key := by
  rw [ofKey, List.filter_eq_nil_iff, List.mem_map]
  simp only [key_eq_iff, not_exists, not_and]

end Record

theorem Amendment.key_apply (item : Amendment) (now : Int) (r : Record) : (item.apply now r).key = r.key := by
  obtain ⟨_, user, recordId, _⟩ := item.apply_keeps now r
  rw [Record.key, user, recordId, Record.key]

theorem Tables.find?_isSome_iff {t : Tables} {owner : Int} {recordId : Text} :
    (∃ r, t.find? owner recordId = some r) ↔ (owner, recordId) ∈ t.records.map Record.key := by
  rw [← Option.isSome_iff_exists, Tables.find?, List.find?_isSome, List.mem_map]
  simp only [Record.key_eq_iff]

namespace Vault

namespace Act

def contents? : Act → Option (Text × Text)
  | create item => some (item.payload, item.hash)
  | amend item => item.contents

def isRemoval : Act → Bool
  | create _ => false
  | amend item => item.contents.isNone

end Act

def Deed.key (d : Deed) : Int × Text := (d.owner, d.act.recordId)

theorem keys_batch {act : α → Act} {recordId : α → Text} (h : ∀ item, (act item).recordId = recordId item)
    (owner now : Int) (items : List α) :
    (Deed.batch owner now act items).map Deed.key = items.map fun item => (owner, recordId item) := by
  simp [Deed.batch, Deed.key, h, Function.comp_def]

theorem creations_upload (owner now : Int) (items : List NewRecord) :
    (Deed.batch owner now .create items).filter (·.act.isCreation) = Deed.batch owner now .create items := by
  apply List.filter_eq_self.mpr
  intro d hd
  obtain ⟨item, _, rfl⟩ := List.mem_map.mp hd
  rfl

/-- All that the deeds done to a record, in their order, tell of its row. -/
structure Tells (log : List Deed) (r : Record) : Prop where
  creation : log.head?.map (·.act.isCreation) = some true
  writes : ∀ d ∈ log.tail, d.act.isCreation = false
  contents : (log.filterMap (·.act.contents?)).getLast? = some (r.payload, r.hash)
  version : r.version = log.tail.length
  deleted : r.deleted = log.any (·.act.isRemoval)
  finality : ∀ d ∈ log.dropLast, d.act.isRemoval = false
  createdAt : log.head?.map (·.now) = some r.createdAt
  updatedAt : log.getLast?.map (·.now) = some r.updatedAt

/-- The rows are what the history of accepted deeds tells. -/
structure Replay (history : List Deed) (rows : List Record) : Prop where
  keys : rows.map Record.key = (history.filter (·.act.isCreation)).map Deed.key
  numbers : rows.Pairwise fun a b => a.serverId < b.serverId
  /-- A record without deeds has no row, and any other has one. -/
  each : ∀ owner recordId,
    let log := history.filter (Deed.isOf owner recordId)
    log = [] ∧ Record.ofKey owner recordId rows = [] ∨
      ∃ r, Record.ofKey owner recordId rows = [r] ∧ Tells log r

variable {d : Deed} {history log more : List Deed} {rows : List Record} {r : Record}

theorem tells_creation {item : NewRecord} (h : d.act = .create item) :
    Tells [d] (Deed.added rows d item) := by
  constructor
  · simp [h, Act.isCreation]
  · intro e he
    cases he
  · simp [h, Act.contents?, Deed.added, Record.fresh]
  · rfl
  · simp [h, Act.isRemoval, Deed.added, Record.fresh]
  · intro e he
    cases he
  · rfl
  · rfl

theorem key_rewrite (d : Deed) (r : Record) : (d.rewrite r).key = r.key := by
  unfold Deed.rewrite
  cases d.act with
  | create item => rfl
  | amend item => exact item.key_apply d.now r

/-- Every write of a row bumps its version and tells the time. -/
theorem stamped_rewrite (hd : d.act.isCreation = false) (r : Record) :
    (d.rewrite r).version = r.version + 1 ∧ (d.rewrite r).updatedAt = d.now := by
  unfold Deed.rewrite
  cases ha : d.act with
  | create item =>
    rw [ha] at hd
    cases hd
  | amend item => exact item.apply_stamps d.now r

theorem contents_rewrite (hd : d.act.isCreation = false) (r : Record) :
    ((d.rewrite r).payload, (d.rewrite r).hash) = d.act.contents?.getD (r.payload, r.hash) ∧
      (d.rewrite r).deleted = (r.deleted || d.act.isRemoval) := by
  unfold Deed.rewrite
  cases ha : d.act with
  | create item =>
    rw [ha] at hd
    cases hd
  | amend item => exact item.apply_contents d.now r

theorem tells_write (h : Tells log r) (hd : d.act.isCreation = false) (live : r.deleted = false) :
    Tells (log ++ [d]) (d.rewrite r) := by
  have nonempty : log ≠ [] := by
    rintro rfl
    have := h.creation
    simp at this
  obtain ⟨first, rest, rfl⟩ := List.exists_cons_of_ne_nil nonempty
  obtain ⟨version, updated⟩ := stamped_rewrite hd r
  obtain ⟨contents, deleted⟩ := contents_rewrite hd r
  constructor
  · exact h.creation
  · intro e he
    rcases List.mem_append.mp he with he | he
    · exact h.writes e he
    · rwa [List.mem_singleton.mp he]
  · rw [List.filterMap_append, contents]
    have before := h.contents
    cases hc : d.act.contents? with
    | none => simpa [hc] using before
    | some c => simp [hc]
  · rw [version, h.version]
    simp
  · rw [deleted, h.deleted, List.any_append]
    simp
  · -- the row that was written was live, so no removal came before
    intro e he
    rw [List.dropLast_concat] at he
    have quiet := h.deleted.symm.trans live
    rw [List.any_eq_false] at quiet
    simpa using quiet e he
  · rw [(d.rewrite_keeps r).2.2.2]
    exact h.createdAt
  · rw [List.getLast?_concat, updated]
    rfl

theorem keys_perform : (Deed.perform rows d).map Record.key =
    rows.map Record.key ++ ([d].filter (·.act.isCreation)).map Deed.key := by
  cases hd : d.act.isCreation with
  | true =>
    obtain ⟨item, ha⟩ := Deed.isCreation_iff.mp hd
    rw [Deed.perform_create ha, List.map_append]
    simp [Deed.added, Record.fresh, Record.key, Deed.key, ha, Act.recordId, Act.isCreation]
  | false =>
    have none : [d].filter (·.act.isCreation) = [] := by simp [hd]
    rw [Deed.perform_eq_map hd, List.map_map, none, List.map_nil, List.append_nil]
    apply List.map_congr_left
    intro r _
    by_cases hr : d.hits r = true
    · simp [hr, key_rewrite]
    · simp [hr]

theorem numbered_perform : rows.map Record.numbered <+: (Deed.perform rows d).map Record.numbered := by
  cases hd : d.act.isCreation with
  | true =>
    obtain ⟨item, ha⟩ := Deed.isCreation_iff.mp hd
    rw [Deed.perform_create ha, List.map_append]
    exact List.prefix_append _ _
  | false =>
    have same : (Deed.perform rows d).map Record.numbered = rows.map Record.numbered := by
      rw [Deed.perform_eq_map hd, List.map_map]
      apply List.map_congr_left
      intro r _
      by_cases hr : d.hits r = true
      · simp [hr, Record.numbered, key_rewrite, (d.rewrite_keeps r).1]
      · simp [hr]
    exact same ▸ List.prefix_refl _

theorem numbers_perform (h : rows.Pairwise fun a b => a.serverId < b.serverId) :
    (Deed.perform rows d).Pairwise fun a b => a.serverId < b.serverId := by
  cases hd : d.act.isCreation with
  | true =>
    obtain ⟨item, ha⟩ := Deed.isCreation_iff.mp hd
    rw [Deed.perform_create ha, List.pairwise_append]
    refine ⟨h, List.pairwise_singleton _ _, ?_⟩
    intro r hr s hs
    rw [List.mem_singleton.mp hs]
    exact Tables.lt_nextId (List.mem_map_of_mem hr)
  | false =>
    have same : ∀ r, (if d.hits r = true then d.rewrite r else r).serverId = r.serverId := by
      intro r
      by_cases hr : d.hits r = true
      · simp [hr, (d.rewrite_keeps r).1]
      · simp [hr]
    rw [Deed.perform_eq_map hd, List.pairwise_map]
    simpa only [same] using h

theorem each_perform (h : Replay history rows) (he : d.Enabled rows) (owner : Int) (recordId : Text) :
    let log := (history ++ [d]).filter (Deed.isOf owner recordId)
    log = [] ∧ Record.ofKey owner recordId (d.perform rows) = [] ∨
      ∃ r, Record.ofKey owner recordId (d.perform rows) = [r] ∧ Tells log r := by
  intro log
  have before := h.each owner recordId
  cases hk : d.isOf owner recordId with
  | false =>
    have same : log = history.filter (Deed.isOf owner recordId) := by simp [log, hk]
    rw [same, Deed.ofKey_other hk]
    exact before
  | true =>
    obtain ⟨rfl, rfl⟩ := Deed.isOf_iff.mp hk
    have grown : log = history.filter (Deed.isOf d.owner d.act.recordId) ++ [d] := by simp [log, hk]
    rw [grown]
    right
    cases hd : d.act.isCreation with
    | true =>
      obtain ⟨item, ha⟩ := Deed.isCreation_iff.mp hd
      have free := (Deed.enabled_creation hd).mp he
      rw [Deed.ofKey_create rows ha, free]
      rcases before with ⟨hlog, _⟩ | ⟨r, hr, _⟩
      · rw [hlog]
        exact ⟨_, rfl, tells_creation ha⟩
      · rw [free] at hr
        cases hr
    | false =>
      obtain ⟨r, hr, hit⟩ := (Deed.enabled_write hd).mp he
      obtain ⟨⟨hu, hi⟩, _, live⟩ := Deed.hits_iff.mp hit
      have mem : r ∈ Record.ofKey d.owner d.act.recordId rows := Record.mem_ofKey.mpr ⟨hr, hu, hi⟩
      rcases before with ⟨_, hnone⟩ | ⟨s, hs, told⟩
      · rw [hnone] at mem
        cases mem
      · rw [hs] at mem
        obtain rfl := List.mem_singleton.mp mem
        refine ⟨d.rewrite r, ?_, tells_write told hd live⟩
        rw [Deed.ofKey_write hd, hs]
        simp [hit]

theorem Replay.perform (h : Replay history rows) (he : d.Enabled rows) :
    Replay (history ++ [d]) (d.perform rows) := by
  constructor
  · rw [keys_perform, h.keys, List.filter_append, List.map_append]
  · exact numbers_perform h.numbers
  · exact each_perform h he

theorem Replay.known_iff (h : Replay history rows) {owner : Int} {recordId : Text} :
    Record.ofKey owner recordId rows ≠ [] ↔ ∃ d ∈ history, d.isOf owner recordId = true := by
  rcases h.each owner recordId with ⟨hlog, hnone⟩ | ⟨r, hr, told⟩
  · have never : ¬ ∃ d ∈ history, d.isOf owner recordId = true := by
      rintro ⟨d, hd, own⟩
      exact List.filter_eq_nil_iff.mp hlog d hd own
    simp [hnone, never]
  · have creation := told.creation
    cases hlog : history.filter (Deed.isOf owner recordId) with
    | nil => simp [hlog] at creation
    | cons d rest =>
      have hd : d ∈ history.filter (Deed.isOf owner recordId) := by simp [hlog]
      constructor
      · exact fun _ => ⟨d, List.mem_filter.mp hd⟩
      · simp [hr]

theorem Replay.performAll (h : Replay history rows) (he : Deed.AllEnabled rows more) :
    Replay (history ++ more) (Deed.performAll rows more) := by
  induction more generalizing history rows with
  | nil => simpa [Deed.performAll] using h
  | cons d rest ih =>
    obtain ⟨hd, hrest⟩ := he
    have := ih (h.perform hd) hrest
    rwa [List.append_assoc, List.singleton_append] at this

theorem keys_performAll : (Deed.performAll rows more).map Record.key =
    rows.map Record.key ++ (more.filter (·.act.isCreation)).map Deed.key := by
  induction more generalizing rows with
  | nil => simp [Deed.performAll]
  | cons d rest ih =>
    have later : Deed.performAll rows (d :: rest) = Deed.performAll (d.perform rows) rest := rfl
    rw [later, ih, keys_perform, List.append_assoc, ← List.map_append, ← List.filter_append]
    rfl

/-- No record is created twice, or when it is there. -/
theorem nodup_creations (h : Deed.AllEnabled rows more) :
    ((more.filter (·.act.isCreation)).map Deed.key).Nodup ∧
      ∀ key ∈ (more.filter (·.act.isCreation)).map Deed.key, key ∉ rows.map Record.key := by
  induction more generalizing rows with
  | nil => simp
  | cons d rest ih =>
    obtain ⟨enabled, later⟩ := h
    obtain ⟨nodup, fresh⟩ := ih later
    rw [keys_perform] at fresh
    cases hd : d.act.isCreation with
    | false =>
      simp only [hd, List.filter_cons, Bool.false_eq_true, if_false, List.filter_nil, List.map_nil,
        List.append_nil] at fresh ⊢
      exact ⟨nodup, fresh⟩
    | true =>
      simp only [hd, List.filter_cons, if_true, List.filter_nil, List.map_cons, List.map_nil,
        List.mem_append, not_or, List.mem_singleton] at fresh ⊢
      have free := (Deed.enabled_creation hd).mp enabled
      constructor
      · exact List.nodup_cons.mpr ⟨fun hmem => (fresh _ hmem).2 rfl, nodup⟩
      · intro key hkey
        rcases List.mem_cons.mp hkey with rfl | hkey
        · exact Record.ofKey_eq_nil_iff.mp free
        · exact (fresh key hkey).1

theorem numbered_performAll :
    rows.map Record.numbered <+: (Deed.performAll rows more).map Record.numbered := by
  induction more generalizing rows with
  | nil => exact List.prefix_refl _
  | cons d rest ih => exact numbered_perform.trans ih

theorem replay_nil : Replay [] [] := by
  constructor
  · rfl
  · exact List.Pairwise.nil
  · intro owner recordId
    exact .inl ⟨rfl, rfl⟩

/-- Nothing more is done to a record after its removal. -/
theorem no_deed_after_removal (h : Replay history rows)
    (later : Replay (history ++ more) (Deed.performAll rows more)) (hr : r ∈ rows) (gone : r.deleted = true) :
    more.filter (Deed.isOf r.userId r.recordId) = [] := by
  have mem : r ∈ Record.ofKey r.userId r.recordId rows := Record.mem_ofKey.mpr ⟨hr, rfl, rfl⟩
  rcases h.each r.userId r.recordId with ⟨_, hnone⟩ | ⟨s, hs, told⟩
  · rw [hnone] at mem
    cases mem
  · rw [hs] at mem
    obtain rfl := List.mem_singleton.mp mem
    have removed := told.deleted.symm.trans gone
    obtain ⟨d, hd, hremoval⟩ := List.any_eq_true.mp removed
    rcases later.each r.userId r.recordId with ⟨hnone, _⟩ | ⟨s, _, told'⟩
    · rw [List.filter_append] at hnone
      rw [(List.append_eq_nil_iff.mp hnone).1] at hd
      cases hd
    · apply Classical.byContradiction
      intro hmore
      have last : d ∈ ((history ++ more).filter (Deed.isOf r.userId r.recordId)).dropLast := by
        rw [List.filter_append, List.dropLast_append_of_ne_nil hmore]
        exact List.mem_append_left _ hd
      have := told'.finality d last
      rw [hremoval] at this
      cases this

/-- Whatever calls are made and however they are interleaved, starting without records, the rows are what the
accepted deeds tell. Later, each of them still has its number, and a tombstone is as it was: no deed about it
was accepted any more. -/
theorem records_replay_history (users : List User) (events later : List Event) :
    let w := World.run { database := some { users } } events
    let w' := w.run later
    ∃ t t', w.database = some t ∧ w'.database = some t' ∧ Replay w.history t.records ∧
      t.records.map Record.numbered <+: t'.records.map Record.numbered ∧
      ∀ r ∈ t.records, r.deleted = true → r ∈ t'.records ∧
        w'.history.filter (Deed.isOf r.userId r.recordId) =
          w.history.filter (Deed.isOf r.userId r.recordId) := by
  intro w w'
  obtain ⟨t, ht, henabled, hrecords⟩ := World.run_effect { users } events
  obtain ⟨more, t', hhistory, ht', hmore, hrecords'⟩ := World.run_later { users } events later ht
  have replay : Replay w.history t.records := by
    rw [hrecords]
    exact replay_nil.performAll henabled
  have replay' := replay.performAll hmore
  refine ⟨t, t', ht, ht', replay, ?_, ?_⟩
  · rw [hrecords']
    exact numbered_performAll
  · intro r hr gone
    have quiet := no_deed_after_removal replay replay' hr gone
    constructor
    · have own : Record.ofKey r.userId r.recordId t'.records = Record.ofKey r.userId r.recordId t.records := by
        rw [hrecords']
        apply Deed.ofKey_performAll
        intro d hd
        simpa using List.filter_eq_nil_iff.mp quiet d hd
      have mem : r ∈ Record.ofKey r.userId r.recordId t.records := Record.mem_ofKey.mpr ⟨hr, rfl, rfl⟩
      rw [← own] at mem
      exact (Record.mem_ofKey.mp mem).1
    · rw [hhistory, List.filter_append, quiet, List.append_nil]

end Vault

end Strongbox
