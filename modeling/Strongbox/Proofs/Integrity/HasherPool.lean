import Strongbox.Integrity.HasherPool
import Strongbox.Proofs.Json.Members

/-!
# Hashers that are out

Any number of holders take hashers, feed them and give them back, in any order. Each holder gets the code of what
it fed to its hasher since it took it, and nothing of what others did. Spare copies are freshly keyed at all times,
and how many there are follows from how many hashers are out.
-/

namespace Strongbox.HasherPool

def Event.upon (name : Text) (message : Option Bytes) : Event → Option Bytes
  | .acquire other => if other = name then some [] else message
  | .update other bytes => if other = name then message.map (· ++ bytes) else message
  | .release other => if other = name then none else message
  | _ => message

/-- What a name has fed to its hasher since it took it; nothing if it has none. -/
def message? (name : Text) (events : List Event) : Option Bytes := events.foldl (Event.upon name) none

/-- A name takes a hasher only while it has none, and gives back only one that it has. -/
def Event.Enabled (events : List Event) : Event → Prop
  | .acquire name => message? name events = none
  | .release name => message? name events ≠ none
  | _ => True

instance (events : List Event) (e : Event) : Decidable (e.Enabled events) :=
  match e with
  | .acquire name => inferInstanceAs (Decidable (message? name events = none))
  | .release name => inferInstanceAs (Decidable (message? name events ≠ none))
  | .update _ _ => isTrue trivial
  | .hexdigest _ => isTrue trivial
  | .digest _ => isTrue trivial

inductive WellFormed : List Event → Prop
  | nil : WellFormed []
  | snoc {events : List Event} {e : Event} (before : WellFormed events) (enabled : e.Enabled events) :
      WellFormed (events ++ [e])

structure Load where
  out : Nat := 0
  peak : Nat := 0

namespace Load

def take (l : Load) : Load := ⟨l.out + 1, max l.peak (l.out + 1)⟩

def giveBack (l : Load) : Load := ⟨l.out - 1, l.peak⟩

/-- A code of one message needs a hasher, too, though not for long. -/
def next (l : Load) : Event → Load
  | .acquire _ => l.take
  | .release _ => l.giveBack
  | .digest _ => l.take.giveBack
  | _ => l

def after (events : List Event) : Load := events.foldl next {}

structure Stocks (l : Load) (size : Int) (free : Nat) : Prop where
  bounded : 0 < size → size - l.out ≤ free ∧ free ≤ size
  unbounded : size ≤ 0 → free + l.out = l.peak

variable {l : Load} {size : Int} {free : Nat}

theorem stocks_take (h : l.Stocks size free) : l.take.Stocks size (free - 1) := by
  constructor
  · intro positive
    obtain ⟨low, high⟩ := h.bounded positive
    simp only [take]
    omega
  · intro unbounded
    have := h.unbounded unbounded
    simp only [take]
    omega

theorem stocks_giveBack (h : l.Stocks size free) (out : 0 < l.out) :
    l.giveBack.Stocks size (if size ≤ 0 ∨ (free : Int) < size then free + 1 else free) := by
  constructor
  · intro positive
    obtain ⟨low, high⟩ := h.bounded positive
    simp only [giveBack]
    split
    · omega
    · omega
  · intro unbounded
    have := h.unbounded unbounded
    rw [if_pos (.inl unbounded)]
    simp only [giveBack]
    omega

end Load

variable {key : Bytes} {size : Int} {events : List Event} {p : HasherPool} {load : Load}

theorem message?_snoc (name : Text) (events : List Event) (e : Event) :
    message? name (events ++ [e]) = e.upon name (message? name events) := by
  rw [message?, List.foldl_append]
  rfl

theorem after_snoc (events : List Event) (e : Event) : Load.after (events ++ [e]) = (Load.after events).next e := by
  rw [Load.after, List.foldl_append]
  rfl

structure Fresh (key : Bytes) (size : Int) (load : Load) (p : HasherPool) : Prop where
  keyed : p.keyed = .keyed .sha256 key
  sized : p.size = size
  spare : ∀ h ∈ p.free, h = .keyed .sha256 key
  stocked : load.Stocks size p.free.length

theorem ofKey_fresh {text : Text} (nonempty : text ≠ []) (h : Utf8.encode? text = some key) :
    ∃ p, ofKey text size = .ok p ∧ Fresh key size {} p := by
  have filled : text.isEmpty = false := List.isEmpty_eq_false_iff.mpr nonempty
  refine ⟨⟨.keyed .sha256 key, size, List.replicate size.toNat (.keyed .sha256 key)⟩, ?_, rfl, rfl, ?_, ?_, ?_⟩
  · rw [ofKey, filled, h]
    rfl
  · intro h hh
    exact List.eq_of_mem_replicate hh
  · intro positive
    simp only [List.length_replicate]
    omega
  · intro unbounded
    simp only [List.length_replicate]
    omega

/-- Whether it comes out of the queue or is made on demand, a hasher that is taken is fresh. -/
theorem acquire_fresh (h : Fresh key size load p) :
    p.acquire.1 = .keyed .sha256 key ∧ Fresh key size load.take p.acquire.2 := by
  have stocked := Load.stocks_take h.stocked
  unfold acquire
  cases hf : p.free with
  | nil =>
    rw [hf] at stocked
    refine ⟨h.keyed, h.keyed, h.sized, h.spare, ?_⟩
    rwa [hf]
  | cons s rest =>
    rw [hf] at stocked
    have spare := h.spare
    rw [hf] at spare
    exact ⟨spare s List.mem_cons_self, h.keyed, h.sized, fun s hs => spare s (List.mem_cons_of_mem _ hs), stocked⟩

theorem release_fresh (h : Fresh key size load p) (out : 0 < load.out) :
    Fresh key size load.giveBack p.release := by
  have stocked := Load.stocks_giveBack h.stocked out
  have sized := h.sized
  subst sized
  unfold release
  split
  · rename_i room
    rw [if_pos room] at stocked
    refine ⟨h.keyed, rfl, ?_, stocked⟩
    intro s hs
    rcases List.mem_cons.mp hs with rfl | hs
    · exact h.keyed
    · exact h.spare s hs
  · rename_i full
    rw [if_neg full] at stocked
    exact ⟨h.keyed, rfl, h.spare, stocked⟩

namespace Desk

def run (d : Desk) (events : List Event) : Desk := events.foldl (fun d e => (d.next e).2) d

theorem run_snoc (d : Desk) (events : List Event) (e : Event) :
    d.run (events ++ [e]) = ((d.run events).next e).2 := by
  rw [run, List.foldl_append]
  rfl

structure Sound (key : Bytes) (size : Int) (events : List Event) (d : Desk) : Prop where
  pool : Fresh key size (Load.after events) d.pool
  distinct : (d.held.map (·.1)).Nodup
  held : ∀ name, Json.lookup? name d.held = (message? name events).map (Hmac.State.keyed .sha256 key).update
  out : d.held.length = (Load.after events).out

variable {d : Desk}

theorem sound_acquire {name : Text} (h : Sound key size events d) (enabled : (Event.acquire name).Enabled events) :
    Sound key size (events ++ [.acquire name]) (d.next (.acquire name)).2 := by
  obtain ⟨fresh, pool⟩ := acquire_fresh h.pool
  have unheld : name ∉ d.held.map (·.1) := by
    apply Json.lookup?_eq_none.mp
    rw [h.held name, enabled]
    rfl
  have taken : (d.next (.acquire name)).2 = ⟨d.pool.acquire.2, d.held ++ [(name, .keyed .sha256 key)]⟩ := by
    rw [← Keyed.put_new unheld, ← fresh]
    rfl
  rw [taken]
  constructor
  · rw [after_snoc]
    exact pool
  · rw [List.map_append, List.nodup_append]
    refine ⟨h.distinct, List.pairwise_singleton _ _, ?_⟩
    intro a ha b hb
    rw [List.mem_singleton.mp hb]
    rintro rfl
    exact unheld ha
  · intro other
    rw [← Keyed.put_new unheld, Json.lookup?_put, h.held other, message?_snoc, Event.upon]
    split
    · rfl
    · rfl
  · rw [after_snoc, List.length_append, h.out]
    rfl

theorem sound_update (name : Text) (bytes : Bytes) (h : Sound key size events d) :
    Sound key size (events ++ [.update name bytes]) (d.next (.update name bytes)).2 := by
  have fed (other : Text) : Json.lookup? other (d.next (.update name bytes)).2.held =
      if other = name then (Json.lookup? other d.held).map fun s => s.update bytes else Json.lookup? other d.held :=
    Json.lookup?_change other name (Hmac.State.update · bytes) d.held
  have names : (d.next (.update name bytes)).2.held.map (·.1) = d.held.map (·.1) := List.map_map
  constructor
  · rw [after_snoc]
    exact h.pool
  · rw [names]
    exact h.distinct
  · intro other
    rw [fed, h.held other, message?_snoc, Event.upon]
    by_cases same : other = name
    · rw [if_pos same, if_pos same.symm, Option.map_map, Option.map_map]
      congr 1
      funext message
      exact (Hmac.State.update_append _ _ _).symm
    · rw [if_neg same, if_neg (Ne.symm same)]
  · rw [after_snoc, ← List.length_map, names, List.length_map]
    exact h.out

theorem sound_release {name : Text} (h : Sound key size events d) (enabled : (Event.release name).Enabled events) :
    Sound key size (events ++ [.release name]) (d.next (.release name)).2 := by
  have held : name ∈ d.held.map (·.1) := by
    apply Classical.byContradiction
    intro unheld
    have none := Json.lookup?_eq_none.mpr unheld
    rw [h.held name, Option.map_eq_none_iff] at none
    exact enabled none
  have names : (d.held.filter fun m => m.1 ≠ name).map (·.1) = (d.held.map (·.1)).erase name := by
    rw [h.distinct.erase_eq_filter, List.filter_map]
    refine congrArg (List.map Prod.fst) (List.filter_congr fun m _ => ?_)
    by_cases same : m.1 = name
    · simp [same]
    · simp [same]
  have fewer : (d.held.filter fun m => m.1 ≠ name).length = d.held.length - 1 := by
    rw [← List.length_map, names, List.length_erase_of_mem held, List.length_map]
  have filled : 0 < d.held.length := by
    rw [← List.length_map]
    exact List.length_pos_of_mem held
  have given : (d.next (.release name)).2 = ⟨d.pool.release, d.held.filter fun m => m.1 ≠ name⟩ := rfl
  rw [given]
  constructor
  · rw [after_snoc]
    exact release_fresh h.pool (h.out ▸ filled)
  · rw [names]
    exact h.distinct.erase name
  · intro other
    rw [Json.lookup?_without, h.held other, message?_snoc, Event.upon]
    by_cases same : other = name
    · rw [if_pos same, if_pos same.symm]
      rfl
    · rw [if_neg same, if_neg (Ne.symm same)]
  · rw [after_snoc, fewer, h.out]
    rfl

theorem sound_digest (bytes : Bytes) (h : Sound key size events d) :
    Sound key size (events ++ [.digest bytes]) (d.next (.digest bytes)).2 := by
  obtain ⟨_, taken⟩ := acquire_fresh h.pool
  have given := release_fresh taken (Nat.succ_pos _)
  constructor
  · rw [after_snoc]
    exact given
  · exact h.distinct
  · intro other
    rw [message?_snoc]
    exact h.held other
  · rw [after_snoc]
    exact h.out

theorem sound_next (h : Sound key size events d) {e : Event} (enabled : e.Enabled events) :
    Sound key size (events ++ [e]) (d.next e).2 := by
  cases e with
  | acquire name => exact sound_acquire h enabled
  | update name bytes => exact sound_update name bytes h
  | hexdigest name =>
    refine ⟨?_, h.distinct, fun other => ?_, ?_⟩
    · rw [after_snoc]
      exact h.pool
    · rw [message?_snoc]
      exact h.held other
    · rw [after_snoc]
      exact h.out
  | release name => exact sound_release h enabled
  | digest bytes => exact sound_digest bytes h

theorem sound_run (pool : Fresh key size {} p) (h : WellFormed events) :
    Sound key size events (run ⟨p, []⟩ events) := by
  induction h with
  | nil => exact ⟨pool, List.nodup_nil, fun _ => rfl, rfl⟩
  | snoc _ enabled ih =>
    rw [run_snoc]
    exact sound_next ih enabled

theorem hexdigest_eq (h : Sound key size events d) {name : Text} {message : Bytes}
    (hm : message? name events = some message) :
    (d.next (.hexdigest name)).1 = some (Hex.encode (Hmac.code .sha256 key message)) := by
  have found := h.held name
  rw [hm] at found
  simp only [next, found, Option.map_some, Hmac.finish_update_keyed]

theorem digest_eq (h : Sound key size events d) (bytes : Bytes) :
    (d.next (.digest bytes)).1 = some (Hex.encode (Hmac.code .sha256 key bytes)) := by
  obtain ⟨fresh, _⟩ := acquire_fresh h.pool
  simp only [next, digest, fresh, Hmac.finish_update_keyed]

end Desk

/-- A pool is made for every key that is not empty and has an encoded form. Whatever its size is and however its
holders' events are interleaved, a holder gets the code of what it fed to its hasher since it took it, a code of one
message is that of the message, and all spare copies are fresh. A bounded queue lacks at most one copy for each
hasher that is out; an unbounded one holds a copy for each other hasher that was ever out at the same time. -/
theorem hashers_never_leak {key : Text} (nonempty : key ≠ []) (size : Int) :
    match Utf8.encode? key with
    | none => ofKey key size = Outcome.fail .unencodable
    | some bytes => ∃ pool, ofKey key size = .ok pool ∧ ∀ events, WellFormed events →
        let d := Desk.run ⟨pool, []⟩ events
        let load := Load.after events
        (∀ name message, message? name events = some message →
          (d.next (.hexdigest name)).1 = some (Hex.encode (Hmac.code .sha256 bytes message))) ∧
        (∀ message, (d.next (.digest message)).1 = some (Hex.encode (Hmac.code .sha256 bytes message))) ∧
        (∀ h ∈ d.pool.free, h = .keyed .sha256 bytes) ∧
        (0 < size → size - load.out ≤ d.pool.free.length ∧ d.pool.free.length ≤ size) ∧
        (size ≤ 0 → d.pool.free.length + load.out = load.peak) := by
  cases he : Utf8.encode? key with
  | none =>
    have filled : key.isEmpty = false := List.isEmpty_eq_false_iff.mpr nonempty
    simp only [ofKey, filled, he]
    rfl
  | some bytes =>
    obtain ⟨pool, made, fresh⟩ : ∃ pool, ofKey key size = .ok pool ∧ Fresh bytes size {} pool := ofKey_fresh nonempty he
    refine ⟨pool, made, fun events h => ?_⟩
    have sound := Desk.sound_run fresh h
    refine ⟨fun name message => Desk.hexdigest_eq sound, Desk.digest_eq sound, sound.pool.spare, ?_, ?_⟩
    · exact sound.pool.stocked.bounded
    · exact sound.pool.stocked.unbounded

/-- Three hashers of a queue of two are out at once, and a code of a message is asked for when two came back. -/
def sampleEvents : List Event :=
  [.acquire [97], .acquire [98], .update [97] [1], .acquire [99], .update [99] [2], .release [97], .release [98],
    .digest [3], .update [99] [4]]

theorem sampleEvents_wellFormed : WellFormed sampleEvents := by
  have first := (WellFormed.nil.snoc (e := .acquire [97]) rfl).snoc (e := .acquire [98]) rfl
  have second := (first.snoc (e := .update [97] [1]) trivial).snoc (e := .acquire [99]) rfl
  have fed := second.snoc (e := .update [99] [2]) trivial
  have returned := (fed.snoc (e := .release [97]) (by decide)).snoc (e := .release [98]) (by decide)
  exact (returned.snoc (e := .digest [3]) trivial).snoc (e := .update [99] [4]) trivial

theorem sample_hashers_never_leak : Text.ofString "k" ≠ [] ∧ WellFormed sampleEvents ∧
    ∃ pool, ofKey (Text.ofString "k") 2 = .ok pool ∧
      let d := Desk.run ⟨pool, []⟩ sampleEvents
      (d.next (.hexdigest [99])).1 = some (Hex.encode (Hmac.code .sha256 [107] [2, 4])) ∧
        (d.next (.digest [5])).1 = some (Hex.encode (Hmac.code .sha256 [107] [5])) ∧
        1 ≤ d.pool.free.length ∧ d.pool.free.length ≤ 2 := by
  have nonempty : Text.ofString "k" ≠ [] := by decide
  have never := hashers_never_leak nonempty 2
  have encoded : Utf8.encode? (Text.ofString "k") = some [107] := by decide
  rw [encoded] at never
  obtain ⟨pool, made, each⟩ := never
  obtain ⟨codes, single, _, bounded, _⟩ := each sampleEvents sampleEvents_wellFormed
  obtain ⟨low, high⟩ := bounded (by decide)
  have out : (Load.after sampleEvents).out = 1 := by decide
  rw [out] at low
  exact ⟨nonempty, sampleEvents_wellFormed, pool, made, codes [99] [2, 4] (by decide), single [5],
    by omega, by omega⟩

end Strongbox.HasherPool
