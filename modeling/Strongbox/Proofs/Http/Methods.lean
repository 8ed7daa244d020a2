import Strongbox.Http.App
import Strongbox.Proofs.Http.Routes

/-!
# Methods that a path does not serve

A request with a method that its path does not serve finds no route, like a request to a path that nobody knows. What is
answered without a route depends on the headers and the body alone, so trying methods does not tell which paths there
are.
-/

namespace Strongbox.Http

variable {base : Template} {template template' : Template} {method path stem : Text}

def Known (base : Template) (path : Text) : Prop := ∃ template ∈ knownTemplates base, template.fit path = .fits

def Unknown (base : Template) (path : Text) : Prop := ∀ template ∈ knownTemplates base, template.fit path = .apart

instance (base : Template) (path : Text) : Decidable (Unknown base path) := by
  unfold Unknown
  infer_instance

def readingMethods : List String := ["GET", "HEAD"]

def Serves (base : Template) (method path : Text) : Prop :=
  (∃ e ∈ Endpoint.all, Text.ofString e.method = method ∧ (e.template base).fit path = .fits) ∨
    (∃ name ∈ readingMethods, Text.ofString name = method) ∧
      ∃ template ∈ descriptionTemplates base, template.fit path = .fits

instance (base : Template) (method path : Text) : Decidable (Serves base method path) := by
  unfold Serves
  infer_instance

/-- A path that stays unknown with a slash added, and without the slashes at its end. -/
structure Stray (base : Template) (path : Text) : Prop where
  unknown : Unknown base path
  longer : Unknown base (path ++ [47])
  shorter : ∀ stem slashes, path = stem ++ List.replicate slashes 47 → stem.getLast? ≠ some 47 → Unknown base stem

theorem stray_of_open_end (h : path.getLast? ≠ some 47) (unknown : Unknown base path)
    (longer : Unknown base (path ++ [47])) : Stray base path := by
  refine ⟨unknown, longer, ?_⟩
  intro stem slashes whole _
  cases slashes with
  | zero =>
    rw [List.replicate_zero, List.append_nil] at whole
    rwa [← whole]
  | succ slashes =>
    rw [List.replicate_succ', ← List.append_assoc] at whole
    rw [whole, List.getLast?_concat] at h
    exact absurd rfl h

theorem fitOf_of_unknown (h : Unknown base path) : fitOf base path = .apart := by
  have none : ((knownTemplates base).map fun template => template.fit path).find? (· != .apart) = none := by
    rw [List.find?_eq_none]
    intro fit listed
    obtain ⟨template, known, rfl⟩ := List.mem_map.mp listed
    rw [h template known]
    decide
  rw [fitOf, none, Option.getD_none]

theorem exists_slashes (path : Text) : ∃ slashes, path = path.rdropWhile (· == 47) ++ List.replicate slashes 47 ∧
    (path.rdropWhile (· == 47)).getLast? ≠ some 47 := by
  have slashes : path.rtakeWhile (· == 47) = List.replicate (path.rtakeWhile (· == 47)).length 47 := by
    apply List.eq_replicate_of_mem
    intro c hc
    have slash := List.mem_rtakeWhile_imp (p := (· == 47)) hc
    exact eq_of_beq slash
  refine ⟨(path.rtakeWhile (· == 47)).length, ?_, ?_⟩
  · rw [← slashes, List.rdropWhile_append_rtakeWhile]
  · intro last
    obtain ⟨stem, whole⟩ := List.getLast?_eq_some_iff.mp last
    -- the removed slashes would be one more
    have again := List.rdropWhile_idempotent (· == 47) path
    rw [whole, List.rdropWhile_concat_pos _ stem 47 rfl] at again
    have shorter := (List.rdropWhile_prefix (· == 47) stem).length_le
    rw [again, List.length_append, List.length_singleton] at shorter
    omega

theorem find_of_stray (h : Stray base path) (method : Text) : Route.find base method path = .unknown := by
  have other : fitOf base (Route.otherSpelling path) = .apart := by
    unfold Route.otherSpelling
    split
    · obtain ⟨slashes, whole, ends⟩ := exists_slashes path
      exact fitOf_of_unknown (h.shorter _ slashes whole ends)
    · exact fitOf_of_unknown h.longer
  simp only [Route.find, fitOf_of_unknown h.unknown, other]

def endings : List Text := (Endpoint.all.filter (· ≠ .welcome)).map Endpoint.ending ++ [descriptionPath []]

def fixedPaths : List Text :=
  Endpoint.welcome.ending :: ["/docs", "/docs/oauth2-redirect", "/redoc"].map Text.ofString

theorem known_cases (h : template ∈ knownTemplates base) :
    (∃ t ∈ endings, template = base ++ [.text t]) ∨ ∃ t ∈ fixedPaths, template = [.text t] := by
  rcases List.mem_append.mp h with endpoint | description
  · obtain ⟨e, listed, rfl⟩ := List.mem_map.mp endpoint
    by_cases hw : e = .welcome
    · subst hw
      exact .inr ⟨_, List.mem_cons_self, rfl⟩
    · refine .inl ⟨e.ending, List.mem_append_left _ (List.mem_map_of_mem ?_), ?_⟩
      · exact List.mem_filter.mpr ⟨listed, decide_eq_true hw⟩
      · cases e with
        | welcome => exact absurd rfl hw
        | _ => rfl
  · rcases List.mem_cons.mp description with rfl | fixed
    · exact .inl ⟨_, List.mem_append_right _ List.mem_cons_self, rfl⟩
    · obtain ⟨name, listed, rfl⟩ := List.mem_map.mp fixed
      exact .inr ⟨_, List.mem_cons_of_mem _ (List.mem_map_of_mem listed), rfl⟩

theorem endings_plain : ∀ t ∈ endings ++ fixedPaths, t.getLast? ≠ some 10 ∧ t ≠ [] := by decide

theorem ending_prefix_backwards {t : Text} (listed : t ∈ endings ++ fixedPaths) (lead : Template)
    (h : Template.fit (lead ++ [.text t]) path ≠ .apart) : t.reverse <+: backwards path := by
  obtain ⟨values, hvalues⟩ := Template.values?_of_fit h
  obtain ⟨open_end, filled⟩ := endings_plain t listed
  exact prefix_backwards (Template.endsWith_of_values? lead hvalues) open_end filled

theorem backwards_fixed {t : Text} (listed : t ∈ fixedPaths) (h : Template.fit [.text t] path ≠ .apart) :
    backwards path = t.reverse := by
  have whole : ∀ t ∈ fixedPaths, backwards t = t.reverse ∧ backwards (t ++ [10]) = t.reverse := by decide
  rw [Template.fit_text] at h
  split at h
  · rename_i hp
    rcases hp with rfl | rfl
    · exact (whole _ listed).1
    · exact (whole _ listed).2
  · exact absurd rfl h

/-- A path goes with one known template at most. -/
theorem known_unique (known : template ∈ knownTemplates base) (known' : template' ∈ knownTemplates base)
    (h : template.fit path ≠ .apart) (h' : template'.fit path ≠ .apart) : template = template' := by
  -- no ending is the end of another one, nor of a fixed path
  have apart : ∀ t ∈ endings, ∀ u ∈ endings ++ fixedPaths, t.reverse <+: u.reverse → t = u := by decide
  have apart' : ∀ t ∈ endings, t ∉ fixedPaths := by decide
  have mixed {t u : Text} (ht : t ∈ endings) (hu : u ∈ fixedPaths) (below : Template.fit (base ++ [.text t]) path ≠ .apart)
      (fixed : Template.fit [.text u] path ≠ .apart) : False := by
    have ending := ending_prefix_backwards (List.mem_append_left _ ht) base below
    rw [backwards_fixed hu fixed] at ending
    have same := apart t ht u (List.mem_append_right _ hu) ending
    exact apart' t ht (same ▸ hu)
  rcases known_cases known with ⟨t, ht, rfl⟩ | ⟨t, ht, rfl⟩
  · rcases known_cases known' with ⟨u, hu, rfl⟩ | ⟨u, hu, rfl⟩
    · have ending := ending_prefix_backwards (List.mem_append_left _ ht) base h
      have ending' := ending_prefix_backwards (List.mem_append_left _ hu) base h'
      rcases List.prefix_or_prefix_of_prefix ending ending' with hp | hp
      · rw [apart t ht u (List.mem_append_left _ hu) hp]
      · rw [apart u hu t (List.mem_append_left _ ht) hp]
    · exact (mixed ht hu h h').elim
  · rcases known_cases known' with ⟨u, hu, rfl⟩ | ⟨u, hu, rfl⟩
    · exact (mixed hu ht h' h).elim
    · have same : t.reverse = u.reverse := (backwards_fixed ht h).symm.trans (backwards_fixed hu h')
      rw [List.reverse_inj.mp same]

theorem fitOf_of_known (h : Known base path) : fitOf base path = .fits := by
  obtain ⟨template, known, fits⟩ := h
  have goes : template.fit path ≠ .apart := by
    rw [fits]
    decide
  cases found : ((knownTemplates base).map fun template => template.fit path).find? (· != .apart) with
  | none =>
    have missed := List.find?_eq_none.mp found _ (List.mem_map_of_mem known)
    exact absurd (bne_iff_ne.mpr goes) missed
  | some fit =>
    have seen := List.find?_some found
    obtain ⟨template', known', rfl⟩ := List.mem_map.mp (List.mem_of_find?_eq_some found)
    rw [fitOf, found, Option.getD_some, known_unique known' known (bne_iff_ne.mp seen) goes, fits]

theorem find_of_unserved (known : Known base path) (unserved : ¬ Serves base method path) :
    Route.find base method path = .unknown := by
  have none : (Endpoint.all.find? fun e =>
      Text.ofString e.method == method && (e.template base).fit path == .fits) = none := by
    rw [List.find?_eq_none]
    intro e listed served
    rw [Bool.and_eq_true, beq_iff_eq, beq_iff_eq] at served
    exact unserved (.inl ⟨e, listed, served⟩)
  simp only [Route.find, fitOf_of_known known, none]

/-- Two bodies with the same bytes are replaced by the same contents, and otherwise treated alike. -/
theorem inflateBody_alike {r r' : Request} (body : r.body = r'.body) (limit : Int) (headers : Headers) :
    inflateBody limit headers r.messages = inflateBody limit headers r'.messages ∨
      ∃ replaced messages messages', inflateBody limit headers r.messages = .replaced replaced messages ∧
        inflateBody limit headers r'.messages = .replaced replaced messages' := by
  unfold Request.body at body
  unfold inflateBody
  cases isCompressed headers with
  | false => exact .inl rfl
  | true =>
    cases whole : collect? r.messages with
    | none =>
      cases whole' : collect? r'.messages with
      | none => exact .inl rfl
      | some found' => simp [whole, whole'] at body
    | some found =>
      cases whole' : collect? r'.messages with
      | none => simp [whole, whole'] at body
      | some found' =>
        have same : found.1 = found'.1 := by simpa [whole, whole'] using body
        simp only [if_true, same]
        cases Gzip.inflate limit found'.1 with
        | error e => cases e <;> exact .inl rfl
        | ok inflated? =>
          cases inflated? with
          | none => exact .inl rfl
          | some contents => exact .inr ⟨_, _, _, rfl, rfl⟩

namespace App

variable {app : App} {m m' : Moment} {r r' : Request}

theorem inflated_without_route (h : Route.find app.base r.method r.path = .unknown) :
    app.inflated m r =
      (Problem.notFound.map (compressed app.settings.gzipMinimumSize r.headers), app.database) := by
  simp only [inflated, routed, h]

/-- Without a route two requests with the same headers and the same body are answered alike, over any two databases. -/
theorem unpacked_without_route (m m' : Moment) (h : Route.find app.base r.method r.path = .unknown)
    (h' : Route.find app.base r'.method r'.path = .unknown) (headers : r.headers = r'.headers)
    (body : r.body = r'.body) (db db' : Database) :
    ∃ result, unpacked { app with database := db } m r = (result, db) ∧
      unpacked { app with database := db' } m' r' = (result, db') := by
  have settings (db : Database) : ({ app with database := db } : App).settings = app.settings := rfl
  have passed (db : Database) (m : Moment) (received : Request)
      (lost : Route.find app.base received.method received.path = .unknown) :
      inflated { app with database := db } m received =
        (Problem.notFound.map (compressed app.settings.gzipMinimumSize received.headers), db) :=
    @inflated_without_route { app with database := db } m received lost
  unfold unpacked
  rw [settings db, settings db', headers]
  rcases inflateBody_alike body app.settings.maxInflatedBodySize r'.headers with
    same | ⟨replaced, messages, messages', hi, hi'⟩
  · rw [same]
    cases inflateBody app.settings.maxInflatedBodySize r'.headers r'.messages with
    | untouched =>
      have first := passed db m r h
      rw [headers] at first
      exact ⟨_, first, passed db' m' r' h'⟩
    | replaced replaced messages => exact ⟨_, passed db m _ h, passed db' m' _ h'⟩
    | refused status reason => exact ⟨_, rfl, rfl⟩
    | abandoned => exact ⟨_, rfl, rfl⟩
    | failed f => exact ⟨_, rfl, rfl⟩
  · rw [hi, hi']
    exact ⟨_, passed db m { r with headers := replaced, messages } h,
      passed db' m' { r' with headers := replaced, messages := messages' } h'⟩

/-- The outer layers add what depends on the method and the headers. -/
theorem handle_without_route (h : Route.find app.base r.method r.path = .unknown)
    (h' : Route.find app.base r'.method r'.path = .unknown) (method : r.method = r'.method)
    (headers : r.headers = r'.headers) (body : r.body = r'.body) (trace : traceId m r = traceId m' r')
    (db db' : Database) :
    ∃ response, handle { app with database := db } m r = (response, { app with database := db }) ∧
      handle { app with database := db' } m' r' = (response, { app with database := db' }) := by
  obtain ⟨result, hr, hr'⟩ := unpacked_without_route m m' h h' headers body db db'
  have settings (db : Database) : ({ app with database := db } : App).settings = app.settings := rfl
  have question : CrossOrigin.isQuestion r = CrossOrigin.isQuestion r' := by
    rw [CrossOrigin.isQuestion, CrossOrigin.isQuestion, method, headers]
  have answer (origins : CrossOrigin.Origins) : CrossOrigin.answer origins r = CrossOrigin.answer origins r' := by
    rw [CrossOrigin.answer, CrossOrigin.answer, CrossOrigin.refusals, CrossOrigin.refusals, headers]
  have marked (origins : CrossOrigin.Origins) : CrossOrigin.marked origins r = CrossOrigin.marked origins r' := by
    funext response
    rw [CrossOrigin.marked, CrossOrigin.marked, headers]
  unfold handle shared traced
  rw [settings db, settings db', hr, hr']
  simp only [question, answer, marked, trace]
  by_cases off : app.settings.allowedOrigins.isEmpty = true
  · simp only [off, if_true]
    exact ⟨_, rfl, rfl⟩
  · by_cases asks : CrossOrigin.isQuestion r' = true
    · simp only [off, asks, if_true]
      exact ⟨_, rfl, rfl⟩
    · simp only [off, asks]
      exact ⟨_, rfl, rfl⟩

end App

/-- A request with a method that its path does not serve, and one with the same method to a path that no route goes
with, not even with a slash added or without the slashes at its end, have the same response if their headers, their
bodies and their trace ids are the same: whatever these, the queries and the settings are, and over any two databases,
which stay as they are. -/
theorem methods_untold {app : App} (m m' : Moment) {r r' : Request} (known : Known app.base r.path)
    (unserved : ¬ Serves app.base r.method r.path) (stray : Stray app.base r'.path) (method : r.method = r'.method)
    (headers : r.headers = r'.headers) (body : r.body = r'.body) (trace : App.traceId m r = App.traceId m' r')
    (db db' : Database) :
    (App.handle { app with database := db } m r).1 = (App.handle { app with database := db' } m' r').1 ∧
      (App.handle { app with database := db } m r).2 = { app with database := db } ∧
      (App.handle { app with database := db' } m' r').2 = { app with database := db' } := by
  obtain ⟨response, hr, hr'⟩ := App.handle_without_route (find_of_unserved known unserved)
    (find_of_stray stray r'.method) method headers body trace db db'
  rw [hr, hr']
  exact ⟨rfl, rfl, rfl⟩

def untoldApp : App :=
  ⟨⟨{ secretKey := Text.ofString "k" }, none⟩, [.text (Text.ofString "/api")], some {}⟩

def tryMethod (path : String) (pieces : List Bytes) : Request :=
  { method := Text.ofString "POST"
    path := Text.ofString path
    headers := [(Text.ofString "x-trace-id", Text.ofString "t")]
    messages := messagesOf pieces }

theorem post_untold : Known untoldApp.base (tryMethod "/api/data/all" [[97, 98]]).path ∧
    ¬ Serves untoldApp.base (Text.ofString "POST") (tryMethod "/api/data/all" [[97, 98]]).path ∧
    Stray untoldApp.base (tryMethod "/api/nowhere" [[97], [98]]).path ∧
    (App.handle { untoldApp with database := some {} } ⟨5, [7], [48]⟩ (tryMethod "/api/data/all" [[97, 98]])).1 =
      (App.handle { untoldApp with database := none } ⟨6, [8], [49]⟩ (tryMethod "/api/nowhere" [[97], [98]])).1 := by
  have known : Known untoldApp.base (tryMethod "/api/data/all" [[97, 98]]).path :=
    ⟨Endpoint.downloadAll.template untoldApp.base, by decide, by decide⟩
  have unserved : ¬ Serves untoldApp.base (Text.ofString "POST") (tryMethod "/api/data/all" [[97, 98]]).path := by
    decide
  have stray : Stray untoldApp.base (tryMethod "/api/nowhere" [[97], [98]]).path :=
    stray_of_open_end (by decide) (by decide) (by decide)
  obtain ⟨same, _⟩ := methods_untold ⟨5, [7], [48]⟩ ⟨6, [8], [49]⟩ known unserved stray rfl rfl rfl rfl
    (some {}) none
  exact ⟨known, unserved, stray, same⟩

/-- No route goes with the path, nor with one slash more or less; but all slashes at its end are taken off to see whether
it should be sent elsewhere. -/
theorem doubled_slash_sent_elsewhere : Known untoldApp.base (tryMethod "/api/data/all" [[]]).path ∧
    ¬ Serves untoldApp.base (Text.ofString "POST") (tryMethod "/api/data/all" [[]]).path ∧
    Unknown untoldApp.base (tryMethod "/api/data/all//" [[]]).path ∧
    Unknown untoldApp.base ((tryMethod "/api/data/all//" [[]]).path ++ [47]) ∧
    (∀ stem, (tryMethod "/api/data/all//" [[]]).path = stem ++ [47] → Unknown untoldApp.base stem) ∧
    (untoldApp.handle ⟨5, [], []⟩ (tryMethod "/api/data/all" [[]])).1 ≠
      (untoldApp.handle ⟨5, [], []⟩ (tryMethod "/api/data/all//" [[]])).1 := by
  have status : (untoldApp.handle ⟨5, [], []⟩ (tryMethod "/api/data/all" [[]])).1.status = 404 := by decide +kernel
  have status' : (untoldApp.handle ⟨5, [], []⟩ (tryMethod "/api/data/all//" [[]])).1.status = 307 := by decide +kernel
  refine ⟨⟨Endpoint.downloadAll.template untoldApp.base, by decide, by decide⟩, by decide, by decide, by decide, ?_, ?_⟩
  · intro stem whole
    have shorter : stem = Text.ofString "/api/data/all/" := by
      have cut := congrArg List.dropLast whole
      rw [List.dropLast_concat] at cut
      exact cut.symm
    rw [shorter]
    decide
  · intro same
    rw [same, status'] at status
    cases status

end Strongbox.Http
