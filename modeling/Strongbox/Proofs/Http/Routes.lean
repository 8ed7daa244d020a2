import Strongbox.Http.Routing
import Strongbox.Proofs.Text.Parts

/-!
# One endpoint for a path

Below any common beginning, whatever its parameters stand for, a path goes with one endpoint at most. So the
method of a request decides whether this endpoint is served, and never which one.
-/

namespace Strongbox

namespace Http

/-- A path that ends with a text, or with a line feed after it. -/
def EndsWith (t path : Text) : Prop := ∃ lead, path = lead ++ t ∨ path = lead ++ t ++ [10]

namespace Template

/-- Whatever the pieces before it stand for, the text at the end of a template is at the end of the path. -/
theorem endsWith_of_values? (base : Template) {t path : Text} {values : List (Parameter × Text)}
    (h : values? (base ++ [.text t]) path = some values) : EndsWith t path := by
  induction base generalizing path values with
  | nil =>
    rw [List.nil_append, values?_text] at h
    split at h
    · rename_i hp
      rcases hp with rfl | rfl
      · exact ⟨[], .inl rfl⟩
      · exact ⟨[], .inr rfl⟩
    · cases h
  | cons piece more ih =>
    -- the rest of the path, after what the first piece stands for
    have rest : ∃ front tail values', path = front ++ tail ∧
        values? (more ++ [.text t]) tail = some values' := by
      cases piece with
      | text lead =>
        obtain ⟨tail, htail, hvalues⟩ := Option.bind_eq_some_iff.mp h
        exact ⟨lead, tail, values, Text.dropLead?_eq_some htail, hvalues⟩
      | parameter name kind =>
        obtain ⟨n, _, hn⟩ := List.exists_of_findSome?_eq_some h
        split at hn
        · obtain ⟨values', hvalues, _⟩ := Option.map_eq_some_iff.mp hn
          exact ⟨path.take n, path.drop n, values', (List.take_append_drop n path).symm, hvalues⟩
        · cases hn
    obtain ⟨front, tail, values', rfl, hvalues⟩ := rest
    obtain ⟨lead, hlead⟩ := ih hvalues
    refine ⟨front ++ lead, ?_⟩
    rcases hlead with rfl | rfl
    · exact .inl (List.append_assoc ..).symm
    · exact .inr (by simp only [List.append_assoc])

theorem values?_of_fit {template : Template} {path : Text} (h : template.fit path ≠ .apart) :
    ∃ values, template.values? path = some values := by
  unfold fit at h
  cases hv : template.values? path with
  | none =>
    rw [hv] at h
    exact absurd rfl h
  | some values => exact ⟨values, rfl⟩

end Template

/-- A path without the line feed at its end, last code point first. -/
def backwards (path : Text) : Text :=
  match path.reverse with
  | 10 :: rest => rest
  | all => all

theorem prefix_backwards {t path : Text} (h : EndsWith t path) (ht : t.getLast? ≠ some 10) (hne : t ≠ []) :
    t.reverse <+: backwards path := by
  obtain ⟨lead, rfl | rfl⟩ := h
  · have plain : backwards (lead ++ t) = t.reverse ++ lead.reverse := by
      unfold backwards
      rw [List.reverse_append]
      cases hr : t.reverse with
      | nil => exact absurd (List.reverse_eq_nil_iff.mp hr) hne
      | cons c rest =>
        have hc : c ≠ 10 := by
          rintro rfl
          rw [← List.head?_reverse, hr] at ht
          exact ht rfl
        split
        · rename_i hcons
          cases hcons
          exact absurd rfl hc
        · rfl
    rw [plain]
    exact List.prefix_append ..
  · have cut : backwards (lead ++ t ++ [10]) = t.reverse ++ lead.reverse := by
      simp [backwards]
    rw [cut]
    exact List.prefix_append ..

namespace Endpoint

def ending (e : Endpoint) : Text := e.path []

theorem endsWith_of_fit {e : Endpoint} {base : Template} {path : Text}
    (h : (e.template base).fit path ≠ .apart) : EndsWith e.ending path := by
  obtain ⟨values, hvalues⟩ := Template.values?_of_fit h
  cases e with
  | welcome => exact Template.endsWith_of_values? [] hvalues
  | _ => exact Template.endsWith_of_values? _ hvalues

theorem ending_prefix {e : Endpoint} {base : Template} {path : Text}
    (h : (e.template base).fit path ≠ .apart) : e.ending.reverse <+: backwards path := by
  refine prefix_backwards (endsWith_of_fit h) ?_ ?_
  · cases e <;> decide
  · cases e <;> decide

theorem backwards_welcome {base : Template} {path : Text} (h : (welcome.template base).fit path ≠ .apart) :
    backwards path = [47] := by
  unfold template at h
  rw [Template.fit_text] at h
  split at h
  · rename_i hp
    rcases hp with rfl | rfl
    · rfl
    · rfl
  · exact absurd rfl h

theorem mem_all (e : Endpoint) : e ∈ all := by cases e <;> decide

/-- No ending but that of the welcome is the end of another one. -/
theorem eq_of_ending_within {e e' : Endpoint} (hw : e ≠ welcome) (h : e.ending.reverse <+: e'.ending.reverse) :
    e = e' := by
  have apart : ∀ e ∈ all, ∀ e' ∈ all, e ≠ welcome → e.ending.reverse <+: e'.ending.reverse → e = e' := by
    decide
  exact apart e (mem_all e) e' (mem_all e') hw h

/-- A path goes with one endpoint at most. -/
theorem eq_of_fit {e e' : Endpoint} {base : Template} {path : Text} (h : (e.template base).fit path ≠ .apart)
    (h' : (e'.template base).fit path ≠ .apart) (hw : e ≠ welcome) : e' = e := by
  have prefixed := ending_prefix h
  have prefixed' := ending_prefix h'
  by_cases hw' : e' = welcome
  · -- the path of the welcome is shorter than the ending of any other endpoint
    subst hw'
    rw [backwards_welcome h'] at prefixed
    have long : ∀ e ∈ all, e ≠ welcome → ¬ e.ending.reverse <+: [47] := by decide
    exact absurd prefixed (long e (mem_all e) hw)
  · rcases List.prefix_or_prefix_of_prefix prefixed prefixed' with hp | hp
    · exact (eq_of_ending_within hw hp).symm
    · exact eq_of_ending_within hw' hp

end Endpoint

theorem fitOf_of_fits {e : Endpoint} {base : Template} {path : Text} (h : (e.template base).fit path = .fits) :
    fitOf base path ≠ .apart := by
  intro hapart
  unfold fitOf at hapart
  have listed : Template.Fit.fits ∈ (knownTemplates base).map fun template => template.fit path := by
    refine List.mem_map.mpr ⟨e.template base, ?_, h⟩
    exact List.mem_append_left _ (List.mem_map.mpr ⟨e, e.mem_all, rfl⟩)
  cases hf : ((knownTemplates base).map fun template => template.fit path).find? (· != .apart) with
  | none => exact absurd (List.find?_eq_none.mp hf _ listed) (by decide)
  | some fit =>
    have found := List.find?_some hf
    rw [hf] at hapart
    exact absurd hapart (bne_iff_ne.mp found)

/-- A path that goes with an endpoint is served by this endpoint, if by any, whatever the method. -/
theorem Route.find_of_fits {e : Endpoint} {base : Template} {path : Text}
    (h : (e.template base).fit path = .fits) (hw : e ≠ .welcome) (method : Text) :
    Route.find base method path = .served e ∨ Route.find base method path = .unknown ∨
      Route.find base method path = .failed := by
  have known := fitOf_of_fits h
  unfold Route.find
  cases hf : fitOf base path with
  | apart => exact absurd hf known
  | unreadable => exact .inr (.inr rfl)
  | fits =>
    simp only
    split
    · rename_i e' he'
      have hfit := List.find?_some he'
      simp only [Bool.and_eq_true, beq_iff_eq] at hfit
      have goes : (e.template base).fit path ≠ .apart := h ▸ by decide
      have goes' : (e'.template base).fit path ≠ .apart := hfit.2 ▸ by decide
      rw [Endpoint.eq_of_fit goes goes' hw]
      exact .inl rfl
    · exact .inr (.inl rfl)

end Http

end Strongbox
