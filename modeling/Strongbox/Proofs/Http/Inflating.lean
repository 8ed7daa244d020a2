import Strongbox.Http.Inflating
import Strongbox.Proofs.Gzip.Inflation

/-!
# What the layer that inflates bodies does

The messages of a connection either bring a body to its end or break off before it. From the body on, the layer acts
by the concatenation of the chunks alone. The application is reached with a scope of its own, and what it receives
begins with the contents.
-/

namespace Strongbox

/-- With a limit that fits, a body is inflated, too long, or corrupt. -/
theorem Gzip.inflate_cases {maxSize : Int} (nonneg : 0 ≤ maxSize) (fits : maxSize + 1 < 0x8000000000000000) (data : Bytes) :
    (∃ body, inflate maxSize data = .ok (some body)) ∨ inflate maxSize data = .ok none ∨
      inflate maxSize data = .error .corrupt := by
  obtain ⟨n, rfl⟩ := Int.eq_ofNat_of_zero_le nonneg
  cases decoded : decodeMember none data with
  | ok d =>
    rw [inflate_of_ok fits decoded]
    by_cases small : d.out.size ≤ n
    · exact .inl ⟨_, congrArg Except.ok (if_pos small)⟩
    · exact .inr (.inl (congrArg Except.ok (if_neg small)))
  | error e =>
    rcases inflate_of_error fits decoded with corrupt | large
    · exact .inr (.inr corrupt)
    · exact .inr (.inl large)

namespace Http

variable {packets rest : List Packet} {chunks : List Bytes} {p : Packet}

inductive Delivers : List Packet → List Bytes → List Packet → Prop where
  | last {p : Packet} {rest : List Packet} (lasts : p.kind ≠ Text.ofString "http.disconnect")
      (final : p.more.getD false = false) : Delivers (p :: rest) [p.body.getD []] rest
  | next {p : Packet} {packets rest : List Packet} {chunks : List Bytes}
      (lasts : p.kind ≠ Text.ofString "http.disconnect") (more : p.more.getD false = true)
      (tail : Delivers packets chunks rest) : Delivers (p :: packets) (p.body.getD [] :: chunks) rest

inductive Breaks : List Packet → List Packet → Prop where
  | ended : Breaks [] []
  | gone {p : Packet} {rest : List Packet} (gone : p.kind = Text.ofString "http.disconnect") : Breaks (p :: rest) rest
  | next {p : Packet} {packets rest : List Packet} (lasts : p.kind ≠ Text.ofString "http.disconnect")
      (more : p.more.getD false = true) (tail : Breaks packets rest) : Breaks (p :: packets) rest

theorem delivers_or_breaks (packets : List Packet) :
    (∃ chunks rest, Delivers packets chunks rest) ∨ ∃ rest, Breaks packets rest := by
  induction packets with
  | nil => exact .inr ⟨[], .ended⟩
  | cons p packets ih =>
    by_cases gone : p.kind = Text.ofString "http.disconnect"
    · exact .inr ⟨packets, .gone gone⟩
    cases more : p.more.getD false with
    | false => exact .inl ⟨_, packets, .last gone more⟩
    | true =>
      rcases ih with ⟨chunks, rest, delivers⟩ | ⟨rest, breaks⟩
      · exact .inl ⟨_, rest, .next gone more delivers⟩
      · exact .inr ⟨rest, .next gone more breaks⟩

namespace World

theorem gatherFrom_gone (gone : p.kind = Text.ofString "http.disconnect") (before : List Bytes) :
    gatherFrom before (p :: packets) = (none, packets) := by
  rw [gatherFrom, if_pos gone]

theorem gatherFrom_last (lasts : p.kind ≠ Text.ofString "http.disconnect") (final : p.more.getD false = false)
    (before : List Bytes) : gatherFrom before (p :: packets) = (some (before ++ [p.body.getD []]), packets) := by
  rw [gatherFrom, if_neg lasts, final]
  rfl

theorem gatherFrom_more (lasts : p.kind ≠ Text.ofString "http.disconnect") (more : p.more.getD false = true)
    (before : List Bytes) : gatherFrom before (p :: packets) = gatherFrom (before ++ [p.body.getD []]) packets := by
  rw [gatherFrom, if_neg lasts, more]
  rfl

theorem gatherFrom_of_delivers (h : Delivers packets chunks rest) (before : List Bytes) :
    gatherFrom before packets = (some (before ++ chunks), rest) := by
  induction h generalizing before with
  | last lasts final => exact gatherFrom_last lasts final before
  | next lasts more tail ih =>
    rw [gatherFrom_more lasts more, ih, List.append_assoc]
    rfl

theorem gatherFrom_of_breaks (h : Breaks packets rest) (before : List Bytes) :
    gatherFrom before packets = (none, rest) := by
  induction h generalizing before with
  | ended => rfl
  | gone gone => exact gatherFrom_gone gone before
  | next lasts more tail ih => rw [gatherFrom_more lasts more, ih]

variable {w w' : World} {α β : Type} {maxSize : Int} {scope : Nat} {headers : Headers} {body : Bytes}

theorem bind_of_ok {x : Action α} {k : α → Action β} {a : α} (h : x w = (.ok a, w')) : (x >>= k) w = k a w' := by
  simp only [bind, ExceptT.bind, ExceptT.mk, StateT.bind, h]
  rfl

theorem map_of_ok {x : Action α} {f : α → β} {a : α} (h : x w = (.ok a, w')) : (f <$> x) w = (.ok (f a), w') := by
  simp only [Functor.map, ExceptT.map, ExceptT.mk, bind, StateT.bind, h]
  rfl

theorem gather_of_delivers (h : Delivers w.incoming chunks rest) :
    gather w = (.ok (some chunks), { w with incoming := rest }) := by
  simp only [gather, gatherFrom_of_delivers h, List.nil_append]

theorem gather_of_breaks (h : Breaks w.incoming rest) : gather w = (.ok none, { w with incoming := rest }) := by
  simp only [gather, gatherFrom_of_breaks h]

theorem look_of_some {given : Scope} (h : w.scopes[scope]? = some given) : look scope w = (.ok given, w) := by
  simp only [look, h]

theorem replay_first {note : Nat} (h : w.replayed[note]? = some false) (body : Bytes) :
    replay note body w = (.ok (.whole body), { w with replayed := w.replayed.set note true }) := if_pos h

theorem replay_later {note : Nat} (h : w.replayed[note]? = some true) (body : Bytes) :
    replay note body w = receive w := by
  refine if_neg ?_
  rw [h]
  intro same
  cases same

end World

def IsLast (name : String) (headers : Headers) (value : Text) : Prop :=
  ∃ before after, headers = before ++ (Text.ofString name, value) :: after ∧ ∀ h ∈ after, h.1 ≠ Text.ofString name

theorem lastHeader?_eq {name : String} {headers : Headers} {value : Text} (h : IsLast name headers value) :
    lastHeader? name headers = some value := by
  obtain ⟨before, after, rfl, others⟩ := h
  have none : after.reverse.find? (fun h => h.1 == Text.ofString name) = none := by
    rw [List.find?_eq_none]
    intro h hm
    rw [beq_iff_eq]
    exact others h (List.mem_reverse.mp hm)
  unfold lastHeader?
  have found : List.find? (fun h => h.1 == Text.ofString name) ((Text.ofString name, value) :: before.reverse) =
      some (Text.ofString name, value) := List.find?_cons_of_pos (beq_self_eq_true _)
  rw [List.reverse_append, List.reverse_cons, List.append_assoc, List.find?_append, none, Option.none_or,
    List.singleton_append, found]
  rfl

theorem isCompressed_of_last {headers : Headers} {value : Text} (h : IsLast "content-encoding" headers value)
    (gzip : value.lowerAscii = Text.ofString "gzip") : isCompressed headers = true := by
  rw [isCompressed, lastHeader?_eq h, Option.map_some, gzip]
  exact beq_self_eq_true _

namespace World

variable {w w' : World} {α : Type} {maxSize : Int} {scope : Nat} {headers : Headers} {body : Bytes}

structure Compressed (w : World) (scope : Nat) (headers : Headers) : Prop where
  given : w.scopes[scope]? = some ⟨Text.ofString "http", some headers⟩
  gzip : isCompressed headers = true

theorem inflating_of_delivers (h : Compressed w scope headers) (delivers : Delivers w.incoming chunks rest)
    (app : Application α) :
    inflating maxSize app scope w = unpacking maxSize app scope headers chunks { w with incoming := rest } := by
  unfold inflating
  rw [bind_of_ok (look_of_some h.given)]
  simp only [Option.getD_some, h.gzip, and_self, if_true]
  exact bind_of_ok (gather_of_delivers delivers)

theorem inflating_of_breaks (h : Compressed w scope headers) (breaks : Breaks w.incoming rest)
    (app : Application α) : inflating maxSize app scope w = (.ok none, { w with incoming := rest }) := by
  unfold inflating
  rw [bind_of_ok (look_of_some h.given)]
  simp only [Option.getD_some, h.gzip, and_self, if_true]
  exact bind_of_ok (gather_of_breaks breaks)

structure Reached (w : World) (headers : Headers) (rest : List Packet) (body : Bytes) (reached : World) : Prop where
  scope : reached.scopes[w.scopes.length]? = some ⟨Text.ofString "http", some
    ((headers.filter fun h => h.1 ≠ Text.ofString "content-encoding" ∧ h.1 ≠ Text.ofString "content-length") ++
      [(Text.ofString "content-length", Text.ofNat body.length)])⟩
  untouched : ∀ (place : Nat) (given : Scope), w.scopes[place]? = some given → reached.scopes[place]? = some given
  first : replay w.replayed.length body reached =
    (.ok (.whole body), { reached with replayed := reached.replayed.set w.replayed.length true })
  later : ∀ after : World, after.replayed[w.replayed.length]? = some true →
    replay w.replayed.length body after = receive after
  incoming : reached.incoming = rest
  unanswered : reached.sent = w.sent

def handed (w : World) (headers : Headers) (body : Bytes) : World :=
  { w with
    scopes := w.scopes ++ [⟨Text.ofString "http", some (replacedHeaders body.length headers)⟩]
    replayed := w.replayed ++ [false] }

theorem reached_handed (w : World) (headers : Headers) (rest : List Packet) (body : Bytes) :
    Reached w headers rest body (handed { w with incoming := rest } headers body) where
  scope := by
    simp only [handed, List.getElem?_concat_length]
    rfl
  untouched := by
    intro place given there
    simp only [handed]
    rw [List.getElem?_append_left (List.getElem?_eq_some_iff.mp there).1]
    exact there
  first := by
    apply replay_first
    simp only [handed, List.getElem?_concat_length]
  later := by
    intro after out
    exact replay_later out body
  incoming := rfl
  unanswered := rfl

theorem unpacking_body (given : w.scopes[scope]? = some ⟨Text.ofString "http", some headers⟩)
    (h : Gzip.inflate maxSize chunks.flatten = .ok (some body)) (app : Application α) :
    unpacking maxSize app scope headers chunks w =
      (some <$> app w.scopes.length (replay w.replayed.length body)) (handed w headers body) := by
  have copy : copied scope w = (.ok w.scopes.length,
      { w with scopes := w.scopes ++ [⟨Text.ofString "http", some headers⟩] }) := by
    unfold copied
    rw [bind_of_ok (look_of_some given)]
  have named : setHeaders w.scopes.length (replacedHeaders body.length headers)
      { w with scopes := w.scopes ++ [⟨Text.ofString "http", some headers⟩] } =
      (.ok (), { w with scopes := w.scopes ++
        [⟨Text.ofString "http", some (replacedHeaders body.length headers)⟩] }) := by
    -- the copy stands at the end
    have last := List.modifyTailIdx_add (List.modifyHead fun s : Scope =>
      { s with headers := some (replacedHeaders body.length headers) }) 0 w.scopes [⟨Text.ofString "http", some headers⟩]
    unfold setHeaders
    rw [Nat.add_zero] at last
    rw [List.modify, last]
    rfl
  simp only [unpacking, h]
  rw [bind_of_ok copy, bind_of_ok named]
  exact bind_of_ok rfl

def refusal (status : Int) (reason : String) : Response :=
  ⟨status, [(Text.ofString "content-type", Text.ofString "text/plain; charset=utf-8")],
    (Text.ofString reason).asciiBytes⟩

theorem unpacking_large (h : Gzip.inflate maxSize chunks.flatten = .ok none) (app : Application α) :
    unpacking maxSize app scope headers chunks w =
      (.ok none, { w with sent := w.sent ++ [refusal 413 "request body too large"] }) := by
  simp only [unpacking, h]
  exact bind_of_ok rfl

theorem unpacking_corrupt (h : Gzip.inflate maxSize chunks.flatten = .error .corrupt) (app : Application α) :
    unpacking maxSize app scope headers chunks w =
      (.ok none, { w with sent := w.sent ++ [refusal 400 "invalid gzip body"] }) := by
  simp only [unpacking, h]
  exact bind_of_ok rfl

/-- A compressed body reaches the application inflated, in a scope of its own with headers that fit the contents, or is
answered if it cannot be inflated within the limit. Either depends on the concatenation of the chunks alone. If the
connection breaks off before the end of the body, nothing happens. -/
theorem compressed_bodies_are_replayed {maxSize : Int} (nonneg : 0 ≤ maxSize) (fits : maxSize + 1 < 0x8000000000000000) {w : World}
    {scope : Nat} {headers : Headers} {value : Text}
    (given : w.scopes[scope]? = some ⟨Text.ofString "http", some headers⟩)
    (encoding : IsLast "content-encoding" headers value) (gzip : value.lowerAscii = Text.ofString "gzip")
    (app : Application α) :
    ((∃ chunks rest, Delivers w.incoming chunks rest) ∨ ∃ rest, Breaks w.incoming rest) ∧
    (∀ chunks rest, Delivers w.incoming chunks rest →
      (∀ incoming chunks', Delivers incoming chunks' rest → chunks'.flatten = chunks.flatten →
        inflating maxSize app scope { w with incoming } = inflating maxSize app scope w) ∧
      ((∃ body reached, Gzip.inflate maxSize chunks.flatten = .ok (some body) ∧ Reached w headers rest body reached ∧
          inflating maxSize app scope w =
            (some <$> app w.scopes.length (replay w.replayed.length body)) reached) ∨
        (Gzip.inflate maxSize chunks.flatten = .ok none ∧ inflating maxSize app scope w =
          (.ok none, { w with incoming := rest, sent := w.sent ++ [refusal 413 "request body too large"] })) ∨
        (Gzip.inflate maxSize chunks.flatten = .error .corrupt ∧ inflating maxSize app scope w =
          (.ok none, { w with incoming := rest, sent := w.sent ++ [refusal 400 "invalid gzip body"] })))) ∧
    ∀ rest, Breaks w.incoming rest → inflating maxSize app scope w = (.ok none, { w with incoming := rest }) := by
  have compressed : Compressed w scope headers := ⟨given, isCompressed_of_last encoding gzip⟩
  refine ⟨delivers_or_breaks w.incoming, ?_, ?_⟩
  · intro chunks rest delivers
    rw [inflating_of_delivers compressed delivers]
    refine ⟨?_, ?_⟩
    · intro incoming chunks' delivers' same
      have compressed' : Compressed { w with incoming } scope headers := ⟨given, compressed.gzip⟩
      rw [inflating_of_delivers compressed' delivers']
      simp only [unpacking, same]
    · rcases Gzip.inflate_cases nonneg fits chunks.flatten with ⟨body, h⟩ | h | h
      · exact .inl ⟨body, _, h, reached_handed w headers rest body, unpacking_body (w := { w with incoming := rest }) given h app⟩
      · exact .inr (.inl ⟨h, unpacking_large h app⟩)
      · exact .inr (.inr ⟨h, unpacking_corrupt h app⟩)
  · intro rest breaks
    exact inflating_of_breaks compressed breaks app

def letterHeaders : Headers := [(Text.ofString "content-encoding", Text.ofString "GZip")]

def letterWorld : World :=
  { scopes := [⟨Text.ofString "http", some letterHeaders⟩], incoming := [.whole Gzip.letter] }

theorem delivers_letter : Delivers letterWorld.incoming [Gzip.letter] [] :=
  .last (by decide) rfl

theorem letter_is_replayed :
    ∃ reached, Reached letterWorld letterHeaders [] [97] reached ∧
      (inflating 1 (fun _ receive => receive) 0 letterWorld).1 = .ok (some (.whole [97])) := by
  have encoding : IsLast "content-encoding" letterHeaders (Text.ofString "GZip") := ⟨[], [], rfl, by simp⟩
  have inflates : Gzip.inflate 1 [Gzip.letter].flatten = .ok (some [97]) :=
    Gzip.member_letter.inflate_eq (n := 1) [] (by decide)
  have given : letterWorld.scopes[0]? = some ⟨Text.ofString "http", some letterHeaders⟩ := rfl
  obtain ⟨_, delivered, _⟩ := compressed_bodies_are_replayed (by decide : (0 : Int) ≤ 1) (by decide) given encoding
    (by decide) fun _ receive => receive
  obtain ⟨_, ⟨body, reached, h, reaches, serves⟩ | ⟨h, _⟩ | ⟨h, _⟩⟩ := delivered _ _ delivers_letter
  · rw [inflates] at h
    cases h
    refine ⟨reached, reaches, ?_⟩
    rw [serves]
    exact congrArg Prod.fst (map_of_ok reaches.first)
  · rw [inflates] at h
    cases h
  · rw [inflates] at h
    cases h

/-- With the first limit that does not fit, a fault takes the place of an answer. -/
theorem letter_fails_under_huge_limit : Gzip.Member Gzip.letter [97] ∧
    inflating 0x7FFFFFFFFFFFFFFF (fun _ receive => receive) 0 letterWorld =
      (.error .overflow, { letterWorld with incoming := [] }) := by
  have compressed : Compressed letterWorld 0 letterHeaders := ⟨rfl, by decide⟩
  have huge : Gzip.inflate 0x7FFFFFFFFFFFFFFF [Gzip.letter].flatten = .error .hugeLimit :=
    Gzip.inflate_huge (by decide) _
  refine ⟨Gzip.member_letter, ?_⟩
  rw [inflating_of_delivers compressed delivers_letter]
  simp only [unpacking, huge]
  rfl

theorem ofMessage_lasts (bytes : Bytes) (more : Bool) :
    (Packet.ofMessage (.body bytes more)).kind ≠ Text.ofString "http.disconnect" := by
  have different : Text.ofString "http.request" ≠ Text.ofString "http.disconnect" := by decide
  exact different

theorem delivers_of_collect? {messages after : List Message} {data : Bytes} (h : collect? messages = some (data, after)) :
    ∃ chunks, Delivers (messages.map .ofMessage) chunks (after.map .ofMessage) ∧ chunks.flatten = data := by
  induction messages generalizing data with
  | nil => cases h
  | cons m messages ih =>
    cases m with
    | disconnect => cases h
    | body bytes more =>
      cases more with
      | false =>
        cases h
        exact ⟨[data], .last (ofMessage_lasts data false) rfl, List.append_nil data⟩
      | true =>
        obtain ⟨⟨tail, after'⟩, found, same⟩ := Option.map_eq_some_iff.mp h
        cases same
        obtain ⟨chunks, delivers, rfl⟩ := ih found
        exact ⟨bytes :: chunks, .next (ofMessage_lasts bytes true) rfl delivers, rfl⟩

theorem breaks_of_collect? {messages : List Message} (h : collect? messages = none) :
    ∃ rest, Breaks (messages.map .ofMessage) rest := by
  induction messages with
  | nil => exact ⟨[], .ended⟩
  | cons m messages ih =>
    cases m with
    | disconnect => exact ⟨_, .gone rfl⟩
    | body bytes more =>
      cases more with
      | false => cases h
      | true =>
        obtain ⟨rest, breaks⟩ := ih (Option.map_eq_none_iff.mp h)
        exact ⟨rest, .next (ofMessage_lasts bytes true) rfl breaks⟩

inductive Enacts (w : World) (scope : Nat) (headers : Headers) (app : Application α) :
    Inflation → Except Fault (Option α) × World → Prop where
  | untouched : Enacts w scope headers app .untouched ((some <$> app scope receive) w)
  | abandoned (rest : List Packet) : Enacts w scope headers app .abandoned (.ok none, { w with incoming := rest })
  | refused (status : Nat) (reason : String) (rest : List Packet) :
      Enacts w scope headers app (.refused status reason)
        (.ok none, { w with incoming := rest, sent := w.sent ++ [refusal status reason] })
  | replaced (body : Bytes) (after : List Message) :
      Enacts w scope headers app (.replaced (replacedHeaders body.length headers) (.body body false :: after))
        ((some <$> app w.scopes.length (replay w.replayed.length body))
          (handed { w with incoming := after.map .ofMessage } headers body))
  | failed (f : Fault) (rest : List Packet) :
      Enacts w scope headers app (.failed f) (.error f, { w with incoming := rest })

/-- The layer does to a connection what inflation does to a request. -/
theorem inflating_enacts {messages : List Message} (given : w.scopes[scope]? = some ⟨Text.ofString "http", some headers⟩)
    (incoming : w.incoming = messages.map .ofMessage) (app : Application α) :
    Enacts w scope headers app (inflateBody maxSize headers messages) (inflating maxSize app scope w) := by
  unfold inflateBody
  by_cases compressed : isCompressed headers = true
  · have compressed : Compressed w scope headers := ⟨given, compressed⟩
    rw [if_pos compressed.gzip]
    cases found : collect? messages with
    | none =>
      obtain ⟨rest, breaks⟩ := breaks_of_collect? found
      rw [← incoming] at breaks
      rw [inflating_of_breaks compressed breaks]
      exact .abandoned rest
    | some result =>
      obtain ⟨data, after⟩ := result
      obtain ⟨chunks, delivers, rfl⟩ := delivers_of_collect? found
      rw [← incoming] at delivers
      rw [inflating_of_delivers compressed delivers]
      simp only []
      cases h : Gzip.inflate maxSize chunks.flatten with
      | error e =>
        cases e with
        | negativeLimit =>
          simp only [unpacking, h]
          exact .failed .badValue _
        | hugeLimit =>
          simp only [unpacking, h]
          exact .failed .overflow _
        | corrupt =>
          rw [unpacking_corrupt h]
          exact .refused 400 "invalid gzip body" _
      | ok inflated =>
        cases inflated with
        | none =>
          rw [unpacking_large h]
          exact .refused 413 "request body too large" _
        | some body =>
          rw [unpacking_body (w := { w with incoming := after.map .ofMessage }) given h]
          exact .replaced body after
  · rw [if_neg compressed]
    have direct : inflating maxSize app scope w = (some <$> app scope receive) w := by
      unfold inflating
      rw [bind_of_ok (look_of_some given)]
      simp only [Option.getD_some, compressed]
      rfl
    rw [direct]
    exact .untouched

end World

end Http

end Strongbox
