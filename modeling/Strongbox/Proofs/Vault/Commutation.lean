import Strongbox.Proofs.Vault.Footprint

/-!
# Independent batches

Two batches that are about different records may be made in either order: each comes to the same, and so do the
tables, apart from the numbers of their rows and the order in which they stand.
-/

namespace Strongbox.Vault

open Store

/-- The keys of the records that the batch is about. It is about none, if its caller may not make it. -/
def Batch.keys (caller : Int) (batch : Batch) : List (Int × Text) :=
  if batch.named = some caller then ((batch.call caller).deeds 0).map Deed.key else []

theorem Batch.key_mem_keys {caller now : Int} {batch : Batch} {d : Deed} (allowed : batch.named = some caller)
    (hd : d ∈ (batch.call caller).deeds now) : d.key ∈ batch.keys caller := by
  rw [keys, if_pos allowed]
  cases batch with
  | upload request =>
    obtain ⟨item, hi, rfl⟩ := List.mem_map.mp hd
    exact List.mem_map.mpr ⟨⟨caller, 0, .create item⟩, List.mem_map_of_mem hi, rfl⟩
  | update request =>
    obtain ⟨item, hi, rfl⟩ := List.mem_map.mp hd
    exact List.mem_map.mpr ⟨⟨caller, 0, .amend item⟩, List.mem_map_of_mem hi, rfl⟩
  | delete request =>
    obtain ⟨item, hi, rfl⟩ := List.mem_map.mp hd
    exact List.mem_map.mpr ⟨⟨caller, 0, .amend item⟩, List.mem_map_of_mem hi, rfl⟩

/-- Both have the same users and the same records, apart from the numbers of rows and their order. -/
structure SameContents (t u : Tables) : Prop where
  users : t.users = u.users
  records : (t.records.map Record.unnumbered).Perm (u.records.map Record.unnumbered)

variable {K : Int × Text → Bool} {t u : Tables}

/-- Records are the same if they are so at some keys and at all the others. -/
theorem perm_of_sameOn (inside : SameOn K t u) (outside : SameOn (fun key => !K key) t u) :
    (t.records.map Record.unnumbered).Perm (u.records.map Record.unnumbered) := by
  have parts : ∀ t : Tables,
      (t.onKeys K ++ t.onKeys fun key => !K key).Perm (t.records.map Record.unnumbered) := by
    intro t
    rw [Tables.onKeys, Tables.onKeys, ← List.map_append]
    exact (List.filter_append_perm (fun r : Record => K r.key) t.records).map _
  refine (parts t).symm.trans ?_
  rw [inside, outside]
  exact parts u

namespace Visit

variable {x y : Visit} {caller other : Int} {a b : Batch}

/-- A batch changes nothing, or its caller may make it and its deeds are done. -/
theorem ended_batch (hx : x.call = a.call caller) (t : Tables) : ∃ u, (x.ended (some t)).database = some u ∧
    (u = t ∨ a.named = some caller ∧ u = { t with records := Deed.performAll t.records (x.call.deeds x.now) }) := by
  have alone : (breaking x.stops x.breaks : Surroundings Unit).Alone := breaking_alone _ _
  cases hr : (x.ended (some t)).result with
  | error e => exact ⟨t, runCall_error_database alone hr, .inl rfl⟩
  | ok answer =>
    obtain ⟨s', hs', hd⟩ := runCall_ok alone hr
    rw [hx] at hs'
    obtain ⟨u, hu, hn, _, same⟩ := (a.lands caller x.now).eval rfl rfl hs'
    rw [hx]
    exact ⟨u, hd.trans hu, .inr ⟨hn, same⟩⟩

/-- It leaves the users alone, and the records of other keys. -/
theorem ended_spares (hx : x.call = a.call caller) (t : Tables) : ∃ u, (x.ended (some t)).database = some u ∧
    u.users = t.users ∧ ∀ K, (∀ key ∈ a.keys caller, K key = false) → SameOn K t u := by
  obtain ⟨u, hu, rfl | ⟨allowed, rfl⟩⟩ := ended_batch hx t
  · exact ⟨u, hu, rfl, fun _ _ => rfl⟩
  · refine ⟨_, hu, rfl, fun K spared => ?_⟩
    have others : ∀ d ∈ x.call.deeds x.now, K d.key = false := by
      rw [hx]
      exact fun d hd => spared d.key (Batch.key_mem_keys allowed hd)
    rw [SameOn, Tables.onKeys, Tables.onKeys, performAll_spares others]

/-- What it comes to depends on the records of its keys alone. -/
theorem ended_sameOn {t' u' : Tables} (hx : x.call = a.call caller)
    (covered : ∀ key ∈ a.keys caller, K key = true) (same : SameOn K t t')
    (hu : (x.ended (some t)).database = some u) (hu' : (x.ended (some t')).database = some u') :
    (x.ended (some t)).result.map Answer.unnumbered = (x.ended (some t')).result.map Answer.unnumbered ∧
      SameOn K u u' := by
  have like := a.like fun allowed d (hd : d ∈ (a.call caller).deeds x.now) =>
    covered d.key (Batch.key_mem_keys allowed hd)
  rw [← hx] at like
  obtain ⟨result, database⟩ := ended_like like (.some same)
  rw [hu, hu'] at database
  cases database with
  | some same => exact ⟨result, same⟩

/-- Two batches that are about different records come to the same in either order, whatever goes wrong around them:
each fails in the same way, or answers the same, and they leave the same users and records, apart from numbers. -/
theorem disjoint_batches_commute (hx : x.call = a.call caller) (hy : y.call = b.call other)
    (apart : ∀ key ∈ a.keys caller, key ∉ b.keys other) (t : Tables) :
    let x₁ := x.ended (some t)
    let y₂ := y.ended x₁.database
    let y₁ := y.ended (some t)
    let x₂ := x.ended y₁.database
    x₁.result.map Answer.unnumbered = x₂.result.map Answer.unnumbered ∧
      y₁.result.map Answer.unnumbered = y₂.result.map Answer.unnumbered ∧
      ∃ u v, y₂.database = some u ∧ x₂.database = some v ∧ SameContents u v := by
  intro x₁ y₂ y₁ x₂
  let K : Int × Text → Bool := (a.keys caller).contains
  have inside : ∀ key ∈ a.keys caller, K key = true := fun key hkey => List.contains_iff_mem.mpr hkey
  have outside : ∀ key ∈ b.keys other, K key = false :=
    fun key hkey => Bool.eq_false_iff.mpr fun own => apart key (List.contains_iff_mem.mp own) hkey
  have inside' : ∀ key ∈ a.keys caller, (!K key) = false := fun key hkey => by rw [inside key hkey]; rfl
  have outside' : ∀ key ∈ b.keys other, (!K key) = true := fun key hkey => by rw [outside key hkey]; rfl
  obtain ⟨u₁, hu₁, usersX, sparedX⟩ := ended_spares hx t
  obtain ⟨v₁, hv₁, usersY, sparedY⟩ := ended_spares hy t
  obtain ⟨u₂, hu₂, usersXY, sparedXY⟩ := ended_spares hy u₁
  obtain ⟨v₂, hv₂, usersYX, sparedYX⟩ := ended_spares hx v₁
  -- neither changes what the other looks at
  obtain ⟨resultX, own⟩ := ended_sameOn hx inside (sparedY K outside) hu₁ hv₂
  obtain ⟨resultY, own'⟩ := ended_sameOn hy outside' (sparedX (fun key => !K key) inside') hv₁ hu₂
  simp only [x₁, y₂, y₁, x₂, hu₁, hv₁]
  refine ⟨resultX, resultY, u₂, v₂, hu₂, hv₂, ?_, ?_⟩
  · rw [usersXY, usersX, usersYX, usersY]
  · refine perm_of_sameOn (K := K) ?_ ?_
    · exact (sparedXY K outside).symm.trans own
    · exact own'.symm.trans (sparedYX (fun key => !K key) inside')

def sampleUpload (owner : Int) (ids : List Text) : Batch :=
  .upload { userId := some owner, items := ids.map fun id => ⟨id, [98], [99]⟩ }

/-- Two users upload records of the same id, which get other numbers in the other order. -/
theorem sample_uploads_commute :
    let x : Visit := { call := (sampleUpload 1 [[97]]).call 1, now := 5, timeout := .finite false 5 0 }
    let y : Visit := { call := (sampleUpload 2 [[97], [98]]).call 2, now := 6, timeout := .finite false 5 0 }
    let x₁ := x.ended (some {})
    let y₂ := y.ended x₁.database
    let y₁ := y.ended (some {})
    let x₂ := x.ended y₁.database
    (∀ key ∈ (sampleUpload 1 [[97]]).keys 1, key ∉ (sampleUpload 2 [[97], [98]]).keys 2) ∧
      (x₁.result.map Answer.unnumbered = x₂.result.map Answer.unnumbered ∧
        y₁.result.map Answer.unnumbered = y₂.result.map Answer.unnumbered ∧
        ∃ u v, y₂.database = some u ∧ x₂.database = some v ∧ SameContents u v) ∧
      (y₂.database.map fun u => u.records.map Record.numbered) =
        some [((1, [97]), 1), ((2, [97]), 2), ((2, [98]), 3)] ∧
      (x₂.database.map fun v => v.records.map Record.numbered) =
        some [((2, [97]), 1), ((2, [98]), 2), ((1, [97]), 3)] := by
  intro x y x₁ y₂ y₁ x₂
  have apart : ∀ key ∈ (sampleUpload 1 [[97]]).keys 1, key ∉ (sampleUpload 2 [[97], [98]]).keys 2 := by decide
  exact ⟨apart, disjoint_batches_commute rfl rfl apart {}, rfl, rfl⟩

end Visit

end Strongbox.Vault
