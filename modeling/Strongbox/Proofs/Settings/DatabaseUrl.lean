import Strongbox.Proofs.Except
import Strongbox.Proofs.Text.Fields
import Strongbox.Settings.Load

/-!
# Addresses in their normal form

An address without a driver is moved to the asynchronous driver of its database, whatever stands after the scheme; but
one that holds the mark of this driver anywhere is taken for an address that names it. The normal form of a normal form
is itself, and it is what the settings hold.
-/

namespace Strongbox

namespace DatabaseUrl

variable {address rest : Text}

structure Move where
  lead : String
  target : String
  mark : String

def moves : List Move :=
  [⟨"postgresql://", "postgresql+asyncpg://", "+asyncpg"⟩, ⟨"sqlite:///", "sqlite+aiosqlite:///", "+aiosqlite"⟩]

def replacements : List (String × String) :=
  ("postgres://", "postgresql+asyncpg://") :: moves.map fun m => (m.lead, m.target)

def leads : List String := replacements.map (·.1)

def targets : List String := replacements.map (·.2)

theorem lead_mem {m : Move} (hm : m ∈ moves) : m.lead ∈ leads := by
  have listed : (m.lead, m.target) ∈ replacements := List.mem_cons_of_mem _ (List.mem_map_of_mem hm)
  exact List.mem_map_of_mem listed

theorem isField_ofString {name : String}
    (h : Text.ofString name ≠ [] ∧ (Text.ofString name).all (fun c => !Text.isBlank c) = true) :
    Text.IsField (Text.ofString name) := by
  refine ⟨h.1, ?_⟩
  intro c hc
  have solid := List.all_eq_true.mp h.2 c hc
  simpa using solid

theorem isField_lead {lead : String} (h : lead ∈ leads) : Text.IsField (Text.ofString lead) := by
  have plain : ∀ lead ∈ leads, Text.ofString lead ≠ [] ∧
      (Text.ofString lead).all (fun c => !Text.isBlank c) = true := by decide
  exact isField_ofString (plain lead h)

theorem isField_target {target : String} (h : target ∈ targets) : Text.IsField (Text.ofString target) := by
  have plain : ∀ target ∈ targets, Text.ofString target ≠ [] ∧
      (Text.ofString target).all (fun c => !Text.isBlank c) = true := by decide
  exact isField_ofString (plain target h)

/-- Of two texts neither of which begins with the other, each is the beginning of texts of its own. -/
theorem append_ne_append {lead other : Text} (h : ¬ lead <+: other) (h' : ¬ other <+: lead) (rest tail : Text) :
    other ++ rest ≠ lead ++ tail := by
  intro same
  have begins : lead <+: other ++ rest := ⟨tail, same.symm⟩
  rcases List.prefix_or_prefix_of_prefix begins (List.prefix_append other rest) with hp | hp
  · exact h hp
  · exact h' hp

theorem replaceLead?_other {lead : String} {t : Text} (replacement : String) (h : ∀ rest, t ≠ Text.ofString lead ++ rest) :
    replaceLead? lead replacement t = none := by
  rw [replaceLead?, Text.dropLead?_eq_none h, Option.map_none]

theorem replaceLead?_own (lead replacement : String) :
    replaceLead? lead replacement (Text.ofString lead ++ rest) = some (Text.ofString replacement ++ rest) := by
  rw [replaceLead?, Text.dropLead?_append, Option.map_some]

theorem normalize_short (h : address.strip = Text.ofString "postgres://" ++ rest) :
    normalize address = Text.ofString "postgresql+asyncpg://" ++ rest := by
  simp only [normalize, h, replaceLead?_own]

/-- No mark holds a slash, so it stands behind the scheme. -/
theorem includes_mark_iff {m : Move} (hm : m ∈ moves) :
    Text.includes (Text.ofString m.lead ++ rest) (Text.ofString m.mark) = true ↔ rest.includes (Text.ofString m.mark) = true := by
  have ends : ∀ m ∈ moves, Text.ofString m.lead = (Text.ofString m.lead).dropLast ++ [47] ∧
      47 ∉ Text.ofString m.mark ∧ ¬ Text.includes (Text.ofString m.lead).dropLast (Text.ofString m.mark) = true := by decide
  obtain ⟨slash, missing, apart⟩ := ends m hm
  rw [Text.includes_iff] at apart
  rw [Text.includes_iff, Text.includes_iff, slash, List.append_assoc, List.singleton_append,
    Text.infix_append_cons_iff missing, or_iff_right apart]

theorem normalize_move {m : Move} (hm : m ∈ moves) (h : address.strip = Text.ofString m.lead ++ rest) :
    normalize address = Text.ofString (if rest.includes (Text.ofString m.mark) then m.lead else m.target) ++ rest := by
  have apart : ∀ lead ∈ leads, ∀ other ∈ leads, lead ≠ other →
      ¬ Text.ofString lead <+: Text.ofString other ∧ ¬ Text.ofString other <+: Text.ofString lead := by decide
  have missed {lead : String} (hlead : lead ∈ leads) (other : lead ≠ m.lead) (replacement : String) :
      replaceLead? lead replacement (Text.ofString m.lead ++ rest) = none := by
    obtain ⟨before, after⟩ := apart lead hlead m.lead (lead_mem hm) other
    exact replaceLead?_other replacement (append_ne_append before after rest)
  have settled : normalize address = if Text.includes (Text.ofString m.lead ++ rest) (Text.ofString m.mark)
      then Text.ofString m.lead ++ rest else Text.ofString m.target ++ rest := by
    have listed := hm
    simp only [moves, List.mem_cons, List.not_mem_nil, or_false] at listed
    rcases listed with rfl | rfl
    · simp only [normalize, h, missed (by decide : "postgres://" ∈ leads) (by decide), replaceLead?_own]
    · simp only [normalize, h, missed (by decide : "postgres://" ∈ leads) (by decide),
        missed (by decide : "postgresql://" ∈ leads) (by decide), replaceLead?_own]
  rw [settled, Bool.eq_iff_iff.mpr (includes_mark_iff hm)]
  split
  · rfl
  · rfl

theorem normalize_other (h : ∀ lead ∈ leads, ∀ rest, address.strip ≠ Text.ofString lead ++ rest) :
    normalize address = address.strip := by
  have missed {lead : String} (hlead : lead ∈ leads) (replacement : String) :
      replaceLead? lead replacement address.strip = none := replaceLead?_other replacement (h lead hlead)
  simp only [normalize, missed (by decide : "postgres://" ∈ leads), missed (by decide : "postgresql://" ∈ leads),
    missed (by decide : "sqlite:///" ∈ leads)]

/-- What begins with a replacement begins with nothing that is replaced. -/
theorem normalize_target {target : String} (ht : target ∈ targets)
    (h : address.strip = Text.ofString target ++ rest) : normalize address = address.strip := by
  have apart : ∀ lead ∈ leads, ∀ target ∈ targets, ¬ Text.ofString lead <+: Text.ofString target ∧
      ¬ Text.ofString target <+: Text.ofString lead := by decide
  apply normalize_other
  intro lead hlead tail
  obtain ⟨before, after⟩ := apart lead hlead target ht
  rw [h]
  exact append_ne_append before after rest tail

/-- The normal form is the trimmed text, or it begins with a replacement of its beginning. -/
theorem normalize_cases (address : Text) : normalize address = address.strip ∨
    ∃ replaced ∈ replacements, ∃ rest, address.strip = Text.ofString replaced.1 ++ rest ∧
      normalize address = Text.ofString replaced.2 ++ rest := by
  by_cases begins : ∃ lead ∈ leads, ∃ rest, address.strip = Text.ofString lead ++ rest
  · obtain ⟨lead, hlead, rest, h⟩ := begins
    obtain ⟨replaced, listed, rfl⟩ := List.mem_map.mp hlead
    rcases List.mem_cons.mp listed with rfl | moved
    · exact .inr ⟨_, listed, rest, h, normalize_short h⟩
    · obtain ⟨m, hm, rfl⟩ := List.mem_map.mp moved
      by_cases marked : rest.includes (Text.ofString m.mark) = true
      · left
        rw [normalize_move hm h, if_pos marked, h]
      · have settled := normalize_move hm h
        rw [if_neg marked] at settled
        exact .inr ⟨_, listed, rest, h, settled⟩
  · left
    apply normalize_other
    intro lead hlead rest h
    exact begins ⟨lead, hlead, rest, h⟩

theorem normalize_normalize (address : Text) : normalize (normalize address) = normalize address := by
  rcases normalize_cases address with same | ⟨replaced, listed, rest, h, moved⟩
  · rw [same]
    have again : normalize address.strip = normalize address := by
      simp only [normalize, Text.strip_strip]
    exact again.trans same
  · -- the rest is trimmed already, as it was at the end of a trimmed text
    have lead := isField_lead (List.mem_map_of_mem listed)
    have target := isField_target (List.mem_map_of_mem listed)
    have trimmed : rest.rdropWhile Text.isBlank = rest := by
      rw [← lead.strip_eq_self_iff, ← h, Text.strip_strip]
    have stripped : Text.strip (Text.ofString replaced.2 ++ rest) = Text.ofString replaced.2 ++ rest :=
      target.strip_eq_self_iff.mpr trimmed
    rw [moved, normalize_target (List.mem_map_of_mem listed) stripped, stripped]

/-- Blanks around a text do not matter, and the mark is looked for in all that follows the scheme. -/
theorem normalize_around {before after : Text} {m : Move} (hm : m ∈ moves)
    (hbefore : ∀ c ∈ before, Text.isBlank c = true) (hafter : ∀ c ∈ after, Text.isBlank c = true) (rest : Text) :
    normalize (before ++ Text.ofString m.lead ++ rest ++ after) =
      Text.ofString (if rest.includes (Text.ofString m.mark) then m.lead else m.target) ++
        rest.rdropWhile Text.isBlank := by
  have field : Text.IsField (Text.ofString m.mark) := by
    have plain : ∀ m ∈ moves, Text.ofString m.mark ≠ [] ∧
        (Text.ofString m.mark).all (fun c => !Text.isBlank c) = true := by decide
    exact isField_ofString (plain m hm)
  have seen : Text.includes (rest.rdropWhile Text.isBlank) (Text.ofString m.mark) =
      rest.includes (Text.ofString m.mark) := by
    rw [Bool.eq_iff_iff, Text.includes_iff, Text.includes_iff]
    exact field.infix_rdropWhile
  have lead := isField_lead (lead_mem hm)
  rw [normalize_move hm (lead.strip_append hbefore hafter), seen]

end DatabaseUrl

namespace Settings

theorem databaseUrl_of_check {address : Text} {m : Sources} {s : Settings} (h : check address m = .ok s) :
    s.databaseUrl = address := by
  unfold check at h
  repeat
    rw [Schema.Checked.ap_eq_ok] at h
    obtain ⟨_, _, h, _, rfl⟩ := h
  obtain ⟨_, _, rfl⟩ := map_eq_ok.mp h
  rename Except.ok address = Except.ok _ => same
  exact (Except.ok.inj same).symm

theorem checkKeys_ok {s s' : Settings} (h : checkKeys s = .ok s') : s' = s := by
  unfold checkKeys at h
  split at h
  · cases h
    rfl
  split at h
  · cases h
  split at h
  · cases h
  · cases h
    rfl

theorem databaseUrl_of_ofSources {address : Text} {m : Sources} {s : Settings}
    (given : setting? "DATABASE_URL" m = some (.text address)) (h : ofSources m = .ok s) :
    s.databaseUrl = DatabaseUrl.normalize address := by
  unfold ofSources at h
  rw [given] at h
  simp only [Option.map_some, addressValue] at h
  split at h
  · rename_i settled hs
    cases h
    obtain ⟨checked, hchecked, hkeys⟩ := bind_eq_ok.mp hs
    rw [checkKeys_ok hkeys]
    exact databaseUrl_of_check hchecked
  · cases h

end Settings

namespace DatabaseUrl

/-- Whatever follows the scheme, and whatever blanks there are around the text, `postgres://` is moved to the
asynchronous driver, and so are `postgresql://` and `sqlite:///` exactly if the mark of the driver does not occur in what
follows; with the mark, and without one of these schemes, a text is only trimmed. Nothing else of it changes, the normal
form of a normal form is itself, and it is what settings hold that are loaded with the text. -/
theorem addresses_moved_unless_marked (before after : Text) (hbefore : ∀ c ∈ before, Text.isBlank c = true)
    (hafter : ∀ c ∈ after, Text.isBlank c = true) (rest address : Text) :
    normalize (before ++ Text.ofString "postgres://" ++ rest ++ after) =
        Text.ofString "postgresql+asyncpg://" ++ rest.rdropWhile Text.isBlank ∧
      normalize (before ++ Text.ofString "postgresql://" ++ rest ++ after) =
        Text.ofString (if rest.includes (Text.ofString "+asyncpg") then "postgresql://" else "postgresql+asyncpg://") ++
          rest.rdropWhile Text.isBlank ∧
      normalize (before ++ Text.ofString "sqlite:///" ++ rest ++ after) =
        Text.ofString (if rest.includes (Text.ofString "+aiosqlite") then "sqlite:///" else "sqlite+aiosqlite:///") ++
          rest.rdropWhile Text.isBlank ∧
      ((∀ lead ∈ ["postgres://", "postgresql://", "sqlite:///"], ∀ rest, address.strip ≠ Text.ofString lead ++ rest) →
        normalize address = address.strip) ∧
      normalize (normalize address) = normalize address ∧
      ∀ sources settings, Settings.setting? "DATABASE_URL" sources = some (.text address) →
        Settings.ofSources sources = .ok settings → settings.databaseUrl = normalize address := by
  have short := (isField_lead (List.mem_cons_self : "postgres://" ∈ leads)).strip_append hbefore hafter (t := rest)
  have postgresql := normalize_around (List.mem_cons_self : moves[0] ∈ moves) hbefore hafter rest
  have sqlite := normalize_around (List.mem_cons_of_mem _ List.mem_cons_self : moves[1] ∈ moves) hbefore hafter rest
  refine ⟨normalize_short short, postgresql, sqlite, normalize_other, normalize_normalize address, ?_⟩
  intro sources settings
  exact Settings.databaseUrl_of_ofSources

/-- A password may hold a plus sign, but not the mark; a blank at the end is trimmed. -/
theorem sample_address_moved :
    normalize ([32] ++ Text.ofString "postgresql://" ++ Text.ofString "u:a+b@db/asyncpg" ++ [10]) =
      Text.ofString "postgresql+asyncpg://u:a+b@db/asyncpg" := by
  obtain ⟨_, moved, _⟩ := addresses_moved_unless_marked [32] [10] (by decide) (by decide)
    (Text.ofString "u:a+b@db/asyncpg") []
  rw [moved]
  decide

/-- The mark in a password is taken for the driver. -/
theorem marked_password_stays : normalize (Text.ofString "postgresql://u:p+asyncpg@db/vault") =
      Text.ofString "postgresql://u:p+asyncpg@db/vault" ∧
    normalize (Text.ofString "postgresql://u:p+asyncpg@db/vault") ≠
      Text.ofString "postgresql+asyncpg://u:p+asyncpg@db/vault" := by
  decide

end DatabaseUrl

end Strongbox
