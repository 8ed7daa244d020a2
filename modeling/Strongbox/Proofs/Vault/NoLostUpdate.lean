import Strongbox.Proofs.Vault.Concurrency

/-!
# No lost update

Of every record the accepted deeds are its creation and then writes, each of which names the version that the
ones before it led to. A write that was prepared for an older version is never accepted, so none is lost.
-/

namespace Strongbox.Vault

/-- How the row of a record and the deeds that were done to it belong together. -/
inductive Agrees : List Record → List Deed → Prop where
  | unused : Agrees [] []
  | used {r : Record} {creation : Deed} {writes : List Deed}
      (created : creation.act.isCreation = true)
      (written : ∀ d ∈ writes, d.act.isCreation = false)
      (versions : writes.map (·.act.version) = (List.range writes.length).map fun k : Nat => some (k : Int))
      (stored : r.version = writes.length) : Agrees [r] (creation :: writes)

namespace Agrees

variable {row rows : List Record} {log deeds : List Deed} {d : Deed} {o : Int} {i : Text}

theorem version_rewrite {r : Record} (h : d.act.isCreation = false) :
    (d.rewrite r).version = r.version + 1 := by
  unfold Deed.rewrite
  cases ha : d.act with
  | create item =>
    rw [ha] at h
    cases h
  | amend item => exact (item.apply_stamps d.now r).1

theorem versions_snoc {writes : List Deed}
    (h : writes.map (·.act.version) = (List.range writes.length).map fun k : Nat => some (k : Int))
    (hd : d.act.version = some (writes.length : Int)) : (writes ++ [d]).map (·.act.version) =
      (List.range (writes ++ [d]).length).map fun k : Nat => some (k : Int) := by
  rw [List.map_append, h, List.length_append, List.length_singleton, List.range_succ, List.map_append]
  simp [hd]

theorem creation (h : Agrees (Record.ofKey d.owner d.act.recordId rows) deeds)
    (hd : d.act.isCreation = true) (he : d.Enabled rows) :
    Agrees (Record.ofKey d.owner d.act.recordId (d.perform rows)) (deeds ++ [d]) := by
  have none := (Deed.enabled_creation hd).mp he
  obtain ⟨r, hv, _, hr⟩ := Deed.ofKey_creation rows hd
  rw [none] at h hr
  rw [hr]
  cases h
  exact .used hd (fun _ hm => nomatch hm) rfl hv

theorem write (h : Agrees (Record.ofKey d.owner d.act.recordId rows) deeds)
    (hd : d.act.isCreation = false) (he : d.Enabled rows) :
    Agrees (Record.ofKey d.owner d.act.recordId (d.perform rows)) (deeds ++ [d]) := by
  obtain ⟨r, hr, hit⟩ := (Deed.enabled_write hd).mp he
  obtain ⟨⟨hu, hi⟩, hver, _⟩ := Deed.hits_iff.mp hit
  have mem : r ∈ Record.ofKey d.owner d.act.recordId rows := Record.mem_ofKey.mpr ⟨hr, hu, hi⟩
  rw [Deed.ofKey_write hd]
  generalize Record.ofKey d.owner d.act.recordId rows = row at h mem
  cases h with
  | unused => cases mem
  | used created written versions stored =>
    rename_i r' first writes
    -- the row that the deed found is the only one of its record
    obtain rfl := List.mem_singleton.mp mem
    simp only [List.map_cons, List.map_nil, hit, if_true, List.cons_append]
    refine .used created ?_ ?_ ?_
    · intro e he
      rcases List.mem_append.mp he with he | he
      · exact written e he
      · rw [List.mem_singleton.mp he]
        exact hd
    · exact versions_snoc versions (by rw [hver, stored])
    · rw [version_rewrite hd, stored]
      simp

theorem perform (h : Agrees (Record.ofKey o i rows) (deeds.filter (Deed.isOf o i))) (he : d.Enabled rows) :
    Agrees (Record.ofKey o i (d.perform rows)) ((deeds ++ [d]).filter (Deed.isOf o i)) := by
  rw [List.filter_append]
  cases hk : d.isOf o i with
  | false =>
    rw [Deed.ofKey_other hk]
    simpa [hk] using h
  | true =>
    obtain ⟨rfl, rfl⟩ := Deed.isOf_iff.mp hk
    rw [List.filter_cons_of_pos hk, List.filter_nil]
    cases hd : d.act.isCreation with
    | true => exact creation h hd he
    | false => exact write h hd he

theorem performAll (h : Agrees (Record.ofKey o i rows) (deeds.filter (Deed.isOf o i))) {more : List Deed}
    (he : Deed.AllEnabled rows more) :
    Agrees (Record.ofKey o i (Deed.performAll rows more)) ((deeds ++ more).filter (Deed.isOf o i)) := by
  induction more generalizing rows deeds with
  | nil => simpa [Deed.performAll] using h
  | cons d rest ih =>
    obtain ⟨hd, hrest⟩ := he
    have := ih (perform h hd) hrest
    rwa [List.append_assoc, List.singleton_append] at this

/-- A version is named by one accepted deed at most. -/
theorem named_once (h : Agrees row log) : (log.filterMap (·.act.version)).Nodup := by
  cases h with
  | unused => exact List.nodup_nil
  | used created written versions stored =>
    rename_i r first writes
    have first_names_none : first.act.version = none := by
      obtain ⟨item, ha⟩ := Deed.isCreation_iff.mp created
      rw [ha]
      rfl
    have named : writes.filterMap (·.act.version) = (List.range writes.length).map fun k : Nat => (k : Int) := by
      have := congrArg (List.filterMap id) versions
      simpa [List.filterMap_map] using this
    rw [List.filterMap_cons, first_names_none, named]
    exact List.Pairwise.map _ (fun a b hab => by omega) List.nodup_range

theorem writes_in_order (h : Agrees row log) : log = [] ∧ row = [] ∨
    ∃ creation writes r, log = creation :: writes ∧ creation.act.isCreation = true ∧
      (∀ d ∈ writes, d.act.isCreation = false) ∧
      writes.map (·.act.version) = (List.range writes.length).map (fun k : Nat => some (k : Int)) ∧
      row = [r] ∧ r.version = writes.length := by
  cases h with
  | unused => exact .inl ⟨rfl, rfl⟩
  | used created written versions stored =>
    exact .inr ⟨_, _, _, rfl, created, written, versions, rfl, stored⟩

end Agrees

/-- Whatever calls are made and however they are interleaved, starting without records: the accepted deeds about
a record are first its creation and then writes that name the versions 0, 1, 2 and so on; no version is named
twice; and the stored version is the number of these writes. -/
theorem no_lost_update (users : List User) (events : List Event) (owner : Int) (recordId : Text) :
    let w := World.run { database := some { users } } events
    let log := w.history.filter (Deed.isOf owner recordId)
    ∃ t, w.database = some t ∧ (log.filterMap (·.act.version)).Nodup ∧
      (log = [] ∧ Record.ofKey owner recordId t.records = [] ∨
        ∃ creation writes r, log = creation :: writes ∧ creation.act.isCreation = true ∧
          (∀ d ∈ writes, d.act.isCreation = false) ∧
          writes.map (·.act.version) = (List.range writes.length).map (fun k : Nat => some (k : Int)) ∧
          Record.ofKey owner recordId t.records = [r] ∧ r.version = writes.length) := by
  intro w log
  obtain ⟨t, ht, henabled, hrecords⟩ := World.run_effect { users } events
  have start : Agrees (Record.ofKey owner recordId []) ([].filter (Deed.isOf owner recordId)) := .unused
  have agrees := start.performAll henabled
  rw [← hrecords, List.nil_append] at agrees
  exact ⟨t, ht, agrees.named_once, agrees.writes_in_order⟩

/-- Of two updates that were prepared for the same version, only the one that writes first is accepted, and
trying the other again does not help. -/
example :
    let add : Call := .upload 1 { userId := some 1, items := [⟨[97], [98], [99]⟩] }
    let change (payload : Text) : Call :=
      .update 1 { userId := some 1, items := [⟨[97], payload, [99], some 0⟩] }
    let w := World.run { database := some {} }
      ([.start 0 add 5] ++ List.replicate 5 (.advance 0) ++
        [.start 1 (change [101]) 6, .start 2 (change [102]) 7, .advance 1, .advance 2] ++
        List.replicate 2 (.advance 1) ++ [.start 3 (change [102]) 8] ++ List.replicate 4 (.advance 3))
    w.accepted.map (·.2) = [5, 6] := by decide

end Strongbox.Vault
