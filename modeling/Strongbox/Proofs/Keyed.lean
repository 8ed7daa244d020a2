import Mathlib.Data.List.Induction
import Mathlib.Data.List.Dedup
import Strongbox.Keyed

/-!
# Entries by their keys

What is found under a key after entries were put one after the other, and in which order they stand.
-/

namespace Strongbox.Keyed

variable {α κ : Type} [Keyed α κ] [DecidableEq κ] {k : κ} {entry : α} {entries known : List α}

def last? (k : κ) (entries : List α) : Option α := find? k entries.reverse

theorem key_of_find? (h : find? k entries = some entry) : key entry = k := by
  simpa using List.find?_some h

theorem key_of_last? (h : last? k entries = some entry) : key entry = k := key_of_find? h

theorem mem_of_last? (h : last? k entries = some entry) : entry ∈ entries := by
  simpa using List.mem_of_find?_eq_some h

theorem find?_eq_none : find? k entries = none ↔ ∀ entry ∈ entries, key entry ≠ k := by
  simp [find?]

theorem last?_eq_none : last? k entries = none ↔ ∀ entry ∈ entries, key entry ≠ k := by
  simp [last?, find?]

theorem last?_append (entries more : List α) :
    last? k (entries ++ more) = (last? k more).or (last? k entries) := by
  simp [last?, find?, List.find?_append]

theorem last?_singleton : last? k [entry] = if key entry = k then some entry else none := by
  by_cases h : key entry = k
  · simp [last?, find?, h]
  · simp [last?, find?, h]

theorem find?_put (entry : α) (known : List α) :
    find? k (put entry known) = if key entry = k then some entry else find? k known := by
  induction known with
  | nil =>
    by_cases hd : key entry = k
    · simp [put, find?, hd]
    · simp [put, find?, hd]
  | cons e rest ih =>
    by_cases he : key e = key entry
    · by_cases hd : key entry = k
      · simp [put, find?, he, hd]
      · simp [put, find?, he, hd]
    · simp only [put, he, if_false]
      by_cases hi : key e = k
      · have hd : key entry ≠ k := fun h => he (hi.trans h.symm)
        simp [find?, hi, hd]
      · have skip : ∀ l, find? k (e :: l) = find? k l := by
          intro l
          simp [find?, hi]
        rw [skip, skip, ih]

theorem keys_put (entry : α) (known : List α) : (put entry known).map key =
    if key entry ∈ known.map key then known.map key else known.map key ++ [key entry] := by
  induction known with
  | nil => rfl
  | cons e rest ih =>
    by_cases he : key e = key entry
    · simp [put, he]
    · have he' : key entry ≠ key e := Ne.symm he
      simp only [put, he, if_false, List.map_cons, ih, List.mem_cons, he', false_or]
      split
      · rfl
      · rfl

theorem put_new (h : key entry ∉ known.map key) : put entry known = known ++ [entry] := by
  induction known with
  | nil => rfl
  | cons e rest ih =>
    rw [List.map_cons, List.mem_cons, not_or] at h
    rw [put, if_neg (Ne.symm h.1), ih h.2]
    rfl

theorem foldl_put_new (h : ((known ++ entries).map key).Nodup) :
    entries.foldl (fun known entry => put entry known) known = known ++ entries := by
  induction entries generalizing known with
  | nil => rw [List.foldl_nil, List.append_nil]
  | cons e rest ih =>
    have new : key e ∉ known.map key := by
      intro he
      rw [List.map_append, List.nodup_append] at h
      exact h.2.2 _ he _ List.mem_cons_self rfl
    have split : known ++ e :: rest = known ++ [e] ++ rest := by simp
    rw [split] at h ⊢
    rw [List.foldl_cons, put_new new]
    exact ih h

/-- Where each key comes once, there is nothing to collect. -/
theorem collect_of_nodup (nodup : (entries.map key).Nodup) : collect entries = entries := foldl_put_new nodup

theorem collect_snoc (entries : List α) (entry : α) :
    collect (entries ++ [entry]) = put entry (collect entries) := by
  rw [collect, List.foldl_append]
  rfl

omit [DecidableEq κ] in
theorem eraseDups_snoc [BEq κ] [LawfulBEq κ] (keys : List κ) (k : κ) :
    (keys ++ [k]).eraseDups = if k ∈ keys then keys.eraseDups else keys.eraseDups ++ [k] := by
  rw [List.eraseDups_append]
  by_cases known : k ∈ keys
  · simp [List.removeAll, known, List.eraseDups_nil]
  · simp [List.removeAll, known, List.eraseDups_cons, List.eraseDups_nil]

theorem keys_collect [BEq κ] [LawfulBEq κ] (entries : List α) :
    (collect entries).map key = (entries.map key).eraseDups := by
  -- entries are put one after the other, so the induction goes from the end of the list
  induction entries using List.reverseRecOn with
  | nil => rfl
  | append_singleton entries e ih =>
    rw [collect_snoc, keys_put, ih, List.map_append, List.map_singleton, eraseDups_snoc]
    simp only [List.mem_eraseDups]

theorem find?_collect (entries : List α) : find? k (collect entries) = last? k entries := by
  induction entries using List.reverseRecOn with
  | nil => rfl
  | append_singleton entries e ih =>
    rw [collect_snoc, find?_put, ih, last?_append, last?_singleton]
    by_cases h : key e = k
    · simp [h]
    · simp [h]

theorem nodup_collect (entries : List α) : ((collect entries).map key).Nodup := by
  induction entries using List.reverseRecOn with
  | nil => exact List.nodup_nil
  | append_singleton entries e ih =>
    rw [collect_snoc, keys_put]
    split
    · exact ih
    · rename_i new
      exact List.nodup_append.mpr ⟨ih, List.pairwise_singleton _ _, by simpa using new⟩

theorem find?_of_mem (nodup : (entries.map key).Nodup) (h : entry ∈ entries) :
    find? (key entry) entries = some entry := by
  induction entries with
  | nil => cases h
  | cons e rest ih =>
    obtain ⟨hne, hrest⟩ := List.nodup_cons.mp nodup
    rcases List.mem_cons.mp h with rfl | h
    · simp [find?]
    · have differs : key e ≠ key entry := fun he => hne (List.mem_map.mpr ⟨entry, h, he.symm⟩)
      have skip : find? (key entry) (e :: rest) = find? (key entry) rest := by simp [find?, differs]
      rw [skip]
      exact ih hrest h

theorem last?_map {f : α → α} (hf : ∀ entry, key (f entry) = key entry) (entries : List α) :
    last? k (entries.map f) = (last? k entries).map f := by
  have same : (fun entry : α => key entry == k) ∘ f = fun entry => key entry == k := by
    funext entry
    rw [Function.comp_apply, hf]
  rw [last?, find?, ← List.map_reverse, List.find?_map, same]
  rfl

theorem last?_filter (keep : κ → Bool) (entries : List α) :
    last? k (entries.filter fun entry => keep (key entry)) = if keep k then last? k entries else none := by
  have same : (fun entry : α => decide (keep (key entry) = true ∧ (key entry == k) = true)) =
      fun entry => keep k && key entry == k := by
    funext entry
    by_cases hk : key entry = k
    · simp [hk]
    · simp [hk]
  rw [last?, find?, ← List.filter_reverse, List.find?_filter, same]
  cases keep k with
  | true => simp [last?, find?]
  | false => simp

theorem mem_collect : entry ∈ collect entries ↔ last? (key entry) entries = some entry := by
  rw [← find?_collect]
  constructor
  · exact find?_of_mem (nodup_collect entries)
  · exact List.mem_of_find?_eq_some

theorem mem_collect_of_last? (h : last? k entries = some entry) : entry ∈ collect entries := by
  rw [mem_collect, key_of_last? h]
  exact h

end Strongbox.Keyed
