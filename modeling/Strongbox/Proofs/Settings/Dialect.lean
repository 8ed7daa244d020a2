import Strongbox.Proofs.Settings.DatabaseUrl
import Strongbox.Settings.Engine

/-!
# The dialect of an address and the options of the engine

An engine is built for the dialect that the scheme names; whether it is the embedded database is asked of the whole
address. Both agree as long as nothing behind the scheme speaks of that database.
-/

namespace Strongbox

namespace Engine

variable {url rest name : Text} {dialect driver : String} {kind : DriverKind} {s : Settings} {e : Engine}

def dialectOf (url : Text) : Text := url.takeWhile fun c => c != 43 && c != 58

theorem splitDriver?_eq_some (h : splitDriver? url = some (name, rest)) : url = name ++ Text.ofString "://" ++ rest := by
  simp only [splitDriver?] at h
  split at h
  · cases h
  · obtain ⟨after, cut, same⟩ := Option.map_eq_some_iff.mp h
    obtain ⟨rfl, rfl⟩ := Prod.mk.inj same
    rw [List.append_assoc, ← Text.dropLead?_eq_some cut, List.takeWhile_append_dropWhile]

theorem readAddress_ok {a : Address} (h : readAddress url = .ok a) : ∃ rest, splitDriver? url = some (a.driver, rest) := by
  unfold readAddress at h
  cases found : splitDriver? url with
  | none =>
    rw [found] at h
    cases h
  | some parts =>
    obtain ⟨driver, rest⟩ := parts
    rw [found] at h
    dsimp only at h
    split at h
    all_goals
      obtain ⟨port, _, built⟩ := bind_eq_ok.mp h
      cases built
      exact ⟨rest, rfl⟩

theorem withoutPlugins_ok {a b : Address} (h : withoutPlugins a = .ok b) : b.driver = a.driver := by
  unfold withoutPlugins at h
  split at h
  · cases h
    rfl
  · cases h

/-- The dialect is one of the known ones, and the driver is named, or it is the first one of the dialect. -/
theorem findDriver_ok (h : findDriver name = .ok (dialect, driver, kind)) : ∃ d ∈ dialects, d.name = dialect ∧
    (name = Text.ofString dialect ∧ d.drivers.head? = some (driver, kind) ∨
      name = Text.ofString dialect ++ 43 :: Text.ofString driver ∧ (driver, kind) ∈ d.drivers) := by
  have whole := Text.join_splitBy 43 name
  have known {written : Text} {d : Dialect} (found : dialects.find? (fun d => Text.ofString d.name == written) = some d) :
      d ∈ dialects ∧ Text.ofString d.name = written :=
    ⟨List.mem_of_find?_eq_some found, eq_of_beq (List.find?_some found :)⟩
  unfold findDriver at h
  split at h
  · rename_i written pieces
    rw [pieces, Text.join, List.intercalate_singleton] at whole
    obtain ⟨_, same, h⟩ := bind_eq_ok.mp h
    cases same
    dsimp only at h
    split at h
    · rename_i d found
      obtain ⟨listed, named⟩ := known found
      split at h
      · rename_i first
        cases h
        exact ⟨d, listed, rfl, .inl ⟨whole.symm.trans named.symm, first⟩⟩
      · cases h
    · cases h
  · rename_i written option pieces
    rw [pieces, Text.join, List.intercalate_cons_cons, List.intercalate_singleton] at whole
    obtain ⟨_, same, h⟩ := bind_eq_ok.mp h
    cases same
    dsimp only at h
    split at h
    · rename_i d found
      obtain ⟨listed, named⟩ := known found
      split at h
      · rename_i chosen
        cases h
        have option := eq_of_beq (List.find?_some chosen :)
        refine ⟨d, listed, rfl, .inr ⟨?_, List.mem_of_find?_eq_some chosen⟩⟩
        rw [← whole, named, ← option, List.append_assoc, List.singleton_append]
      · cases h
    · cases h
  · cases h

def usable : List (String × String) := [("sqlite", "aiosqlite"), ("postgresql", "asyncpg")]

/-- Neither of them is the first one of its dialect, so both are named. -/
theorem findDriver_asynchronous (h : findDriver name = .ok (dialect, driver, .asynchronous)) :
    name = Text.ofString dialect ++ 43 :: Text.ofString driver ∧ (dialect, driver) ∈ usable := by
  have listed : ∀ d ∈ dialects, (∀ p ∈ d.drivers.head?, p.2 ≠ .asynchronous) ∧
      ∀ p ∈ d.drivers, p.2 = .asynchronous → (d.name, p.1) ∈ usable := by decide
  obtain ⟨d, hd, rfl, ⟨_, first⟩ | ⟨named, chosen⟩⟩ := findDriver_ok h
  · exact absurd rfl ((listed d hd).1 _ first)
  · exact ⟨named, (listed d hd).2 _ chosen rfl⟩

theorem asynchronous_of (h : kind ≠ .missing) (h' : kind ≠ .synchronous) : kind = .asynchronous := by
  cases kind with
  | asynchronous => rfl
  | synchronous => exact absurd rfl h'
  | missing => exact absurd rfl h

/-- What is built from settings has a driver that can be used, and the options that are chosen by the whole address. -/
theorem ofSettings_ok (h : ofSettings s = .ok e) : ∃ a, readAddress s.databaseUrl = .ok a ∧
    findDriver a.driver = .ok (e.dialect, e.driver, .asynchronous) ∧
      e.pool = (if s.isSqlite then .unpooled else .queued 5) ∧ e.sharedBetweenThreads = s.isSqlite := by
  unfold ofSettings at h
  obtain ⟨b, opened, h⟩ := bind_eq_ok.mp h
  obtain ⟨⟨dialect, driver, kind⟩, found, h⟩ := bind_eq_ok.mp h
  obtain ⟨a, read, kept⟩ := bind_eq_ok.mp opened
  rw [withoutPlugins_ok kept] at found
  dsimp only at h
  split at h
  · cases h
  · rename_i present
    -- either kind of database has options that are checked first
    split at h
    all_goals
      obtain ⟨_, _, h⟩ := bind_eq_ok.mp h
      split at h
      · cases h
      · rename_i quick
        cases h
        rw [asynchronous_of present quick] at found
        exact ⟨a, read, found, rfl, rfl⟩

def scheme (driver : String × String) : Text :=
  Text.ofString driver.1 ++ 43 :: Text.ofString driver.2 ++ Text.ofString "://"

theorem databaseUrl_of_ofSettings (h : ofSettings s = .ok e) :
    (e.dialect, e.driver) ∈ usable ∧ ∃ rest, s.databaseUrl = scheme (e.dialect, e.driver) ++ rest := by
  obtain ⟨a, read, found, _⟩ := ofSettings_ok h
  obtain ⟨named, listed⟩ := findDriver_asynchronous found
  obtain ⟨rest, split⟩ := readAddress_ok read
  refine ⟨listed, rest, ?_⟩
  rw [splitDriver?_eq_some split, named, scheme]

theorem dialectOf_append (h : (dialectOf name).length ≠ name.length) (rest : Text) :
    dialectOf (name ++ rest) = dialectOf name := by
  unfold dialectOf at h ⊢
  rw [List.takeWhile_append, if_neg h]

theorem dialectOf_scheme {driver : String × String} (h : driver ∈ usable) (rest : Text) :
    dialectOf (scheme driver ++ rest) = Text.ofString driver.1 := by
  have ends : ∀ driver ∈ usable, dialectOf (scheme driver) = Text.ofString driver.1 ∧
      (dialectOf (scheme driver)).length ≠ (scheme driver).length := by decide
  obtain ⟨named, shorter⟩ := ends driver h
  rw [dialectOf_append shorter, named]

/-- An address in its normal form has the dialect of the embedded database just if it had it before. -/
theorem dialectOf_normalize (address : Text) : dialectOf (DatabaseUrl.normalize address) = Text.ofString "sqlite" ↔
    dialectOf address.strip = Text.ofString "sqlite" := by
  have alike : ∀ replaced ∈ DatabaseUrl.replacements, (dialectOf (Text.ofString replaced.2) = Text.ofString "sqlite" ↔
      dialectOf (Text.ofString replaced.1) = Text.ofString "sqlite") ∧
      (dialectOf (Text.ofString replaced.1)).length ≠ (Text.ofString replaced.1).length ∧
      (dialectOf (Text.ofString replaced.2)).length ≠ (Text.ofString replaced.2).length := by decide
  rcases DatabaseUrl.normalize_cases address with same | ⟨replaced, listed, rest, h, moved⟩
  · rw [same]
  · obtain ⟨same, before, after⟩ := alike replaced listed
    rw [moved, h, dialectOf_append before, dialectOf_append after, same]

/-- The name of the embedded database holds no slash, so it stands in the scheme or behind it. -/
theorem isSqlite_iff {driver : String × String} (h : driver ∈ usable) (url : s.databaseUrl = scheme driver ++ rest) :
    s.isSqlite = true ↔ driver.1 = "sqlite" ∨ rest.lower.includes (Text.ofString "sqlite") = true := by
  have ends : ∀ driver ∈ usable, (scheme driver).lower = (scheme driver).lower.dropLast ++ [47] ∧
      (Text.includes (scheme driver).lower.dropLast (Text.ofString "sqlite") = true ↔ driver.1 = "sqlite") := by decide
  obtain ⟨slash, named⟩ := ends driver h
  have missing : 47 ∉ Text.ofString "sqlite" := by decide
  have lower : (scheme driver ++ rest).lower = (scheme driver).lower ++ rest.lower := List.map_append
  rw [Settings.isSqlite, url, lower, slash, List.append_assoc, List.singleton_append, Text.includes_iff,
    Text.infix_append_cons_iff missing, ← Text.includes_iff, ← Text.includes_iff, named]

/-- An address with which an engine is built has a scheme with a driver, and the dialect of the engine is that of the
scheme, which the address has also before it is in its normal form. The connections are neither pooled nor kept to one
thread just if the dialect is the embedded database, or anything behind the scheme speaks of it; otherwise there is a
queue of five. -/
theorem options_follow_dialect_unless_named (h : ofSettings s = .ok e) :
    ∃ rest, s.databaseUrl = scheme (e.dialect, e.driver) ++ rest ∧
      dialectOf s.databaseUrl = Text.ofString e.dialect ∧
      (∀ address, s.databaseUrl = DatabaseUrl.normalize address →
        (dialectOf s.databaseUrl = Text.ofString "sqlite" ↔ dialectOf address.strip = Text.ofString "sqlite")) ∧
      (s.isSqlite = true ↔ dialectOf s.databaseUrl = Text.ofString "sqlite" ∨
        rest.lower.includes (Text.ofString "sqlite") = true) ∧
      (s.isSqlite = true → e.pool = .unpooled ∧ e.sharedBetweenThreads = true) ∧
      (s.isSqlite = false → e.pool = .queued 5 ∧ e.sharedBetweenThreads = false) := by
  obtain ⟨listed, rest, url⟩ := databaseUrl_of_ofSettings h
  obtain ⟨_, _, _, pool, shared⟩ := ofSettings_ok h
  have dialect : dialectOf s.databaseUrl = Text.ofString e.dialect := by
    rw [url]
    exact dialectOf_scheme listed rest
  have known : ∀ driver ∈ usable, Text.ofString driver.1 = Text.ofString "sqlite" ↔ driver.1 = "sqlite" := by decide
  refine ⟨rest, url, dialect, ?_, ?_, ?_, ?_⟩
  · intro address normal
    rw [normal]
    exact dialectOf_normalize address
  · rw [dialect, known _ listed]
    exact isSqlite_iff listed url
  · intro embedded
    rw [pool, shared, embedded]
    exact ⟨rfl, rfl⟩
  · intro hosted
    rw [pool, shared, hosted]
    exact ⟨rfl, rfl⟩

def settingsWith (address : String) : Settings := { databaseUrl := DatabaseUrl.normalize (Text.ofString address) }

def hostedEngine (database : String) (pool : Pool) (shared : Bool) : Engine :=
  { dialect := "postgresql"
    driver := "asyncpg"
    pool
    sharedBetweenThreads := shared
    echo := false
    address :=
      { driver := Text.ofString "postgresql+asyncpg"
        user := some (Text.ofString "u")
        password := some (Text.ofString "p")
        host := some (Text.ofString "db")
        database := some (Text.ofString database) } }

set_option maxRecDepth 2000 in
theorem sample_engine_queued : ∃ e, ofSettings (settingsWith "postgres://u:p@db/vault") = .ok e ∧
    dialectOf (settingsWith "postgres://u:p@db/vault").databaseUrl = Text.ofString "postgresql" ∧
    e.pool = .queued 5 ∧ e.sharedBetweenThreads = false := by
  have built : ofSettings (settingsWith "postgres://u:p@db/vault") = .ok (hostedEngine "vault" (.queued 5) false) := rfl
  obtain ⟨_, _, dialect, _, _, _, queued⟩ := options_follow_dialect_unless_named built
  exact ⟨_, built, dialect, queued (by decide)⟩

set_option maxRecDepth 2000 in
/-- The name of a database on a host is taken for the embedded one. -/
theorem database_name_unpooled :
    dialectOf (settingsWith "postgres://u:p@db/sqlite").databaseUrl = Text.ofString "postgresql" ∧
      (settingsWith "postgres://u:p@db/sqlite").isSqlite = true ∧
      ∃ e, ofSettings (settingsWith "postgres://u:p@db/sqlite") = .ok e ∧ e.dialect = "postgresql" ∧
        e.pool = .unpooled ∧ e.sharedBetweenThreads = true := by
  have built : ofSettings (settingsWith "postgres://u:p@db/sqlite") = .ok (hostedEngine "sqlite" .unpooled true) := rfl
  exact ⟨by decide, by decide, _, built, rfl, rfl, rfl⟩

end Engine

end Strongbox
