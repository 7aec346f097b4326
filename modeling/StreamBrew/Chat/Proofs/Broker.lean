/-
When a new subscriber learns the last state of a source.

# What is settled

Before it has read the key of a source, a subscriber without a message
from its source has learnt nothing yet, and whatever it then reads is
what it will have learnt last. From the read on, or from the first
message after its subscription, what it will have learnt last is settled
until the publisher publishes again (`settled`).

# The condition

With the last state published, it must not be settled wrongly. Three
steps can do that (`Keeps`): the publish itself, when its message does
not reach a subscriber for which something else is settled; the listing
of the keys, when the first state of the source has been published but
not put; and the read of the key, when the last state has been published
but an older one is still under the key.
-/
import StreamBrew.Chat.Broker

namespace StreamBrew.Chat.Broker

open Relational Relational.Table

variable {idempotencyKey : String} {keys : List String} {y : Option String}

variable {sourceID st : String} {s : System} {event : StreamEvent}

-- =============================== definitions

/-- What of a list of messages reaches a subscriber. -/
def decoded (messages : List StreamEvent) : List StreamEvent :=
  messages.filter StreamEvent.valid

/-- The first message that a subscriber has yet to be given. -/
def Stage.next : Stage → Option Nat
  | .idle => none
  | .listing next | .reading next _ | .delivering next => some next

/-- The key of a source is still to be read. -/
def Stage.unread (sourceID : String) : Stage → Bool
  | .idle | .listing _ => true
  | .reading _ keys => keys.contains sourceID
  | .delivering _ => false

/-- The messages that the subscriber has not been given. -/
def System.pending (s : System) : List StreamEvent :=
  match s.stage.next with
  | none => []
  | some next => decoded (s.subject.drop next)

/-- What the subscriber will have learnt last of a source if nothing
more is published: `none` while it depends on a read. -/
def System.settled (sourceID : String) (s : System) :
    Option (Option String) :=
  if s.stage.unread sourceID = true ∧ lastState sourceID s.pending = none
    then none
  else some (lastState sourceID (s.output ++ s.pending))

/-- What the bucket tells of a source. -/
def System.stored (sourceID : String) (s : System) : Option String :=
  lastState sourceID (decoded (s.states.get? sourceID).toList)

/-- The step does not settle anything but the last state `st`. -/
def Keeps (sourceID st : String) (s : System) : Action → Prop
  | .publish event idempotencyKey =>
      event.stateOf sourceID = none ∨ (s.putting.get? sourceID).isSome
        ∨ (idempotencyKey ∉ s.seen ∧ event.valid = true)
        ∨ s.settled sourceID = none ∨ s.settled sourceID = some (some st)
  | .list =>
      match s.stage with
      | .listing _ => s.settled sourceID = none →
          (s.states.get? sourceID).isSome
      | _ => True
  | .read =>
      match s.stage with
      | .reading _ (key :: _) => key = sourceID →
          s.settled sourceID = none → s.stored sourceID = some st
      | _ => True
  | _ => True

/-- How many events told a state of a source. -/
def told (sourceID : String) (events : List StreamEvent) : Nat :=
  events.countP fun e => (e.stateOf sourceID).isSome

/-- What a subscription has sent and has still to send, of one source. -/
structure Inv (sourceID : String) (s : System) : Prop where
  /-- only a read or a message tells of the source -/
  unread : s.stage.unread sourceID = true → lastState sourceID s.output = none
  next : ∀ next, s.stage.next = some next → next ≤ s.subject.length
  keys : ∀ next keys, s.stage = .reading next keys → keys.Nodup
  states : ∀ r ∈ s.states, r.type = "state"
  putting : ∀ r ∈ s.putting, r.type = "state"

-- ================================== messages

theorem decoded_append (before after : List StreamEvent) :
    decoded (before ++ after) = decoded before ++ decoded after :=
  List.filter_append ..

/-- A message that does not reach a subscriber, or tells nothing of the
source, settles nothing. -/
theorem lastState_decoded_none {e : StreamEvent}
    (h : e.valid = false ∨ e.stateOf sourceID = none) :
    lastState sourceID (decoded [e]) = none := by
  unfold decoded
  rcases h with h | h
  · rw [List.filter_cons_of_neg (by simpa using h)]
    rfl
  · rw [List.filter_cons]
    split
    case isTrue =>
      rw [List.filter_nil, ← List.nil_append [e], lastState_snoc, h]
      rfl
    case isFalse => rfl

theorem lastState_decoded {e : StreamEvent} (h : e.valid = true) :
    lastState sourceID (decoded [e]) = e.stateOf sourceID := by
  unfold decoded
  rw [List.filter_cons_of_pos h, List.filter_nil, ← List.nil_append [e],
    lastState_snoc]
  exact Option.or_none

theorem append_seen (h : idempotencyKey ∈ s.seen) :
    s.append event idempotencyKey = s := if_pos h

/-- A new message waits for the subscriber, if there is one. -/
theorem pending_append (h : Inv sourceID s) (hnew : idempotencyKey ∉ s.seen) :
    (s.append event idempotencyKey).pending
      = if s.stage = .idle then [] else s.pending ++ decoded [event] := by
  unfold System.append
  rw [if_neg hnew]
  unfold System.pending
  cases hstage : s.stage with
  | idle => rfl
  | listing next =>
      have hle := h.next next (by rw [hstage]; rfl)
      simp only [Stage.next, reduceCtorEq, if_false]
      rw [List.drop_append_of_le_length hle, decoded_append]
  | reading next keys =>
      have hle := h.next next (by rw [hstage]; rfl)
      simp only [Stage.next, reduceCtorEq, if_false]
      rw [List.drop_append_of_le_length hle, decoded_append]
  | delivering next =>
      have hle := h.next next (by rw [hstage]; rfl)
      simp only [Stage.next, reduceCtorEq, if_false]
      rw [List.drop_append_of_le_length hle, decoded_append]

variable (s event) in
theorem append_fields (idempotencyKey : String) :
    (s.append event idempotencyKey).stage = s.stage
      ∧ (s.append event idempotencyKey).output = s.output := by
  unfold System.append
  split <;> exact ⟨rfl, rfl⟩

/-- A message that settles nothing. -/
theorem settled_append (h : Inv sourceID s)
    (hnot : idempotencyKey ∈ s.seen ∨ event.valid = false
      ∨ event.stateOf sourceID = none) :
    (s.append event idempotencyKey).settled sourceID
      = s.settled sourceID := by
  by_cases hseen : idempotencyKey ∈ s.seen
  · rw [append_seen hseen]
  · have htells := lastState_decoded_none (hnot.resolve_left hseen)
    obtain ⟨hstage, houtput⟩ := append_fields s event idempotencyKey
    unfold System.settled
    rw [pending_append h hseen, hstage, houtput]
    split
    case isTrue hidle =>
      have hpending : s.pending = [] := by
        unfold System.pending
        rw [hidle]
        rfl
      rw [hpending]
    case isFalse =>
      rw [lastState_append, lastState_append, lastState_append,
        lastState_append, htells, Option.none_or]

/-- A message that settles its state. -/
theorem settled_reached (h : Inv sourceID s)
    (hnew : idempotencyKey ∉ s.seen) (hvalid : event.valid = true)
    (hstate : event.stateOf sourceID = some st) :
    (s.append event idempotencyKey).settled sourceID = none
      ∨ (s.append event idempotencyKey).settled sourceID
        = some (some st) := by
  obtain ⟨hstage, houtput⟩ := append_fields s event idempotencyKey
  have htells : lastState sourceID (decoded [event]) = some st :=
    (lastState_decoded hvalid).trans hstate
  unfold System.settled
  rw [pending_append h hnew, hstage, houtput]
  by_cases hidle : s.stage = .idle
  · rw [if_pos hidle, hidle]
    exact .inl (if_pos ⟨rfl, rfl⟩)
  · rw [if_neg hidle, lastState_append, lastState_append, lastState_append,
      htells, Option.some_or, Option.some_or, if_neg (by simp)]
    exact .inr rfl

-- ===================================== steps

theorem inv_init : Inv sourceID {} where
  unread _ := rfl
  next _ h := by cases h
  keys _ _ h := by cases h
  states _ h := absurd h not_mem_empty
  putting _ h := absurd h not_mem_empty

theorem inv_append (h : Inv sourceID s) (idempotencyKey : String) :
    Inv sourceID (s.append event idempotencyKey) := by
  unfold System.append
  split
  case isTrue => exact h
  case isFalse =>
    refine ⟨h.unread, fun next hnext => ?_, h.keys, h.states, h.putting⟩
    exact Nat.le_trans (h.next next hnext) (by simp)

/-- A publisher publishes. -/
theorem inv_publish (h : Inv sourceID s) (idempotencyKey : String) :
    Inv sourceID (s.publish event idempotencyKey) := by
  have happend : Inv sourceID (s.append event idempotencyKey) :=
    inv_append h idempotencyKey
  unfold System.publish
  split
  case h_1 =>
    exact ⟨happend.unread, happend.next, happend.keys, happend.states,
      happend.putting⟩
  case h_2 state hstate =>
    split
    case isTrue => exact h
    case isFalse =>
      refine ⟨happend.unread, happend.next, happend.keys, happend.states,
        fun r hr => ?_⟩
      rcases mem_put.mp hr with rfl | ⟨hr, -⟩
      · exact stateEvent_type hstate
      · exact h.putting r hr

theorem inv_put (h : Inv sourceID s) (key : String) :
    Inv sourceID (s.put key) := by
  unfold System.put
  split
  case h_1 => exact h
  case h_2 state hstate =>
    refine ⟨h.unread, h.next, h.keys, fun r hr => ?_, fun r hr => ?_⟩
    · rcases mem_put.mp hr with rfl | ⟨hr, -⟩
      · exact h.putting _ (mem_of_get? hstate)
      · exact h.states r hr
    · exact h.putting r (mem_erase.mp hr).1

/-- What is emitted when a key is read. -/
theorem read_key {next : Nat} {key : String}
    (hstage : s.stage = .reading next (key :: keys)) :
    s.step .read = { s with
      stage := .reading next keys
      output := s.output ++ decoded (s.states.get? key).toList } := by
  simp only [System.step, hstage]
  cases s.states.get? key with
  | none => simp [decoded]
  | some state =>
      unfold System.emit
      simp only [Option.toList_some, decoded, List.filter_cons]
      split <;> simp

/-- The key of another source. -/
theorem lastState_key (h : Inv sourceID s) {key : String}
    (hkey : key ≠ sourceID) :
    lastState sourceID (decoded (s.states.get? key).toList) = none := by
  cases hget : s.states.get? key with
  | none => rfl
  | some state =>
      obtain ⟨hmem, hid⟩ := get?_eq_some.mp hget
      refine lastState_decoded_none (.inr ?_)
      exact stateOf_other (h.states state hmem) (by rw [hid]; exact hkey)

/-- The subscription reads a state. -/
theorem inv_read (h : Inv sourceID s) : Inv sourceID (s.step .read) := by
  cases hstage : s.stage with
  | reading next keys =>
      have hnext := h.next next (by rw [hstage]; rfl)
      cases keys with
      | nil =>
          simp only [System.step, hstage]
          refine ⟨nofun, fun n hn => ?_, nofun, h.states, h.putting⟩
          cases hn
          exact hnext
      | cons key keys =>
          have hkeys := List.nodup_cons.mp (h.keys next (key :: keys) hstage)
          rw [read_key hstage]
          refine ⟨fun hunread => ?_, fun n hn => ?_, fun n l hl => ?_,
            h.states, h.putting⟩
          · have hmem : sourceID ∈ keys := by
              simpa [Stage.unread] using hunread
            have hother : key ≠ sourceID := by
              rintro rfl
              exact hkeys.1 hmem
            rw [lastState_append, lastState_key h hother, Option.none_or]
            exact h.unread (by simp [hstage, Stage.unread, hmem])
          · cases hn
            exact hnext
          · cases hl
            exact hkeys.2
  | idle => simp only [System.step, hstage]; exact h
  | listing => simp only [System.step, hstage]; exact h
  | delivering => simp only [System.step, hstage]; exact h

/-- What is emitted when a message is delivered. -/
theorem deliver_message {next : Nat} (hstage : s.stage = .delivering next)
    (hmessage : s.subject[next]? = some event) :
    s.step .deliver = { s with
      stage := .delivering (next + 1)
      output := s.output ++ decoded [event] } := by
  simp only [System.step, hstage, hmessage, System.emit, decoded,
    List.filter_cons, List.filter_nil]
  split <;> simp

/-- The subscription is sent an event. -/
theorem inv_deliver (h : Inv sourceID s) : Inv sourceID (s.step .deliver) := by
  cases hstage : s.stage with
  | delivering next =>
      cases hmessage : s.subject[next]? with
      | none =>
          simp only [System.step, hstage, hmessage]
          exact h
      | some event =>
          rw [deliver_message hstage hmessage]
          refine ⟨nofun, fun n hn => ?_, nofun, h.states, h.putting⟩
          cases hn
          exact (List.getElem?_eq_some_iff.mp hmessage).1
  | idle => simp only [System.step, hstage]; exact h
  | listing => simp only [System.step, hstage]; exact h
  | reading => simp only [System.step, hstage]; exact h

/-- One step of anyone. -/
theorem inv_step (h : Inv sourceID s) (a : Action) :
    Inv sourceID (s.step a) := by
  cases a with
  | publish event idempotencyKey => exact inv_publish h idempotencyKey
  | put key => exact inv_put h key
  | forget => exact ⟨h.unread, h.next, h.keys, h.states, h.putting⟩
  | subscribe =>
      simp only [System.step]
      split
      case h_1 hstage =>
        refine ⟨fun _ => h.unread (by rw [hstage]; rfl), fun n hn => ?_,
          nofun, h.states, h.putting⟩
        cases hn
        exact Nat.le_refl _
      case h_2 => exact h
  | list =>
      simp only [System.step]
      split
      case h_1 next hstage =>
        refine ⟨fun _ => h.unread (by rw [hstage]; rfl), fun n hn => ?_,
          fun n l hl => ?_, h.states, h.putting⟩
        · cases hn
          exact h.next next (by rw [hstage]; rfl)
        · cases hl
          exact List.nodup_reverse.mpr s.states.nodup
      case h_2 => exact h
  | read => exact inv_read h
  | deliver => exact inv_deliver h

-- =================================== settled

theorem settled_iff :
    s.settled sourceID = some y ↔
      (s.stage.unread sourceID = true → lastState sourceID s.pending ≠ none)
        ∧ lastState sourceID (s.output ++ s.pending) = y := by
  unfold System.settled
  split
  case isTrue h =>
    constructor
    · intro h'
      cases h'
    · rintro ⟨hne, -⟩
      exact absurd h.2 (hne h.1)
  case isFalse h =>
    rw [Option.some_inj]
    exact ⟨fun hy => ⟨fun hu hn => h ⟨hu, hn⟩, hy⟩, fun hy => hy.2⟩

theorem settled_none_iff :
    s.settled sourceID = none ↔ s.stage.unread sourceID = true
      ∧ lastState sourceID s.pending = none := by
  unfold System.settled
  split
  case isTrue h => exact ⟨fun _ => h, fun _ => rfl⟩
  case isFalse h => exact ⟨nofun, fun h' => absurd h' h⟩

theorem pending_list {next : Nat} (hstage : s.stage = .listing next) :
    System.pending { s with stage := .reading next keys } = s.pending := by
  unfold System.pending
  rw [hstage]
  rfl

theorem pending_read {next : Nat} (stage : Stage)
    (output : List StreamEvent) (hstage : s.stage = .reading next keys)
    (hnext : stage.next = some next) :
    System.pending { s with stage, output } = s.pending := by
  unfold System.pending
  rw [hstage, hnext]
  rfl

/-- The message that is delivered is the first of those that wait. -/
theorem pending_deliver {next : Nat} (output : List StreamEvent)
    (hstage : s.stage = .delivering next)
    (hmessage : s.subject[next]? = some event) :
    s.pending = decoded [event]
      ++ System.pending { s with stage := .delivering (next + 1), output } := by
  obtain ⟨hlt, hevent⟩ := List.getElem?_eq_some_iff.mp hmessage
  unfold System.pending
  rw [hstage]
  simp only [Stage.next]
  rw [List.drop_eq_getElem_cons hlt, hevent, ← decoded_append]
  rfl

theorem told_snoc (events : List StreamEvent) (e : StreamEvent) :
    told sourceID (events ++ [e]) = told sourceID events
      + if (e.stateOf sourceID).isSome then 1 else 0 := by
  unfold told
  rw [List.countP_append, List.countP_singleton]

variable (s event) in
/-- A publisher that is busy with the state of a source does not begin
to publish. -/
theorem published_publish (idempotencyKey : String) :
    (s.publish event idempotencyKey).published = s.published
      ∨ (∀ state, event.stateEvent = some state →
          (s.putting.get? state.sourceID).isNone)
        ∧ (s.publish event idempotencyKey).published
          = s.published ++ [event] := by
  unfold System.publish
  split
  case h_1 hnone =>
    refine .inr ⟨fun state hstate => ?_, rfl⟩
    cases hnone.symm.trans hstate
  case h_2 state hstate =>
    split
    case isTrue => exact .inl rfl
    case isFalse hfree =>
      refine .inr ⟨fun other hother => ?_, rfl⟩
      cases hstate.symm.trans hother
      simpa using hfree

/-- Publishing for another source, or a busy publisher, settles
nothing. -/
theorem settled_publish (h : Inv sourceID s)
    (hquiet : idempotencyKey ∈ s.seen ∨ event.valid = false
      ∨ event.stateOf sourceID = none
      ∨ (s.publish event idempotencyKey).published = s.published) :
    (s.publish event idempotencyKey).settled sourceID
      = s.settled sourceID := by
  have happend : (s.publish event idempotencyKey).published ≠ s.published →
      (s.append event idempotencyKey).settled sourceID
        = s.settled sourceID := by
    intro hne
    refine settled_append h ?_
    rcases hquiet with h | h | h | h
    · exact .inl h
    · exact .inr (.inl h)
    · exact .inr (.inr h)
    · exact absurd h hne
  unfold System.publish at happend ⊢
  cases hstate : event.stateEvent with
  | none =>
      rw [hstate] at happend
      exact happend (by simp)
  | some state =>
      rw [hstate] at happend
      simp only at happend ⊢
      split
      case isTrue => rfl
      case isFalse hfree =>
        rw [if_neg hfree] at happend
        exact happend (by simp)

theorem settled_publish_other (h : Inv sourceID s)
    (htold : told sourceID (s.publish event idempotencyKey).published
      = told sourceID s.published) :
    (s.publish event idempotencyKey).settled sourceID
      = s.settled sourceID := by
  refine settled_publish h (.inr (.inr ?_))
  rcases published_publish s event idempotencyKey
    with hsame | ⟨-, hnew⟩
  · exact .inr hsame
  · rw [hnew, told_snoc] at htold
    refine .inl (Option.not_isSome_iff_eq_none.mp fun hsome => ?_)
    rw [if_pos hsome] at htold
    omega

/-- What the read of a key tells a subscriber for which something else
is settled. -/
theorem settled_read (h : Inv sourceID s) (hy : s.settled sourceID = some y) :
    (s.step .read).settled sourceID = some y := by
  obtain ⟨hne, hlast⟩ := settled_iff.mp hy
  cases hstage : s.stage with
  | reading next keys =>
      cases keys with
      | nil =>
          simp only [System.step, hstage]
          refine settled_iff.mpr ⟨nofun, ?_⟩
          rw [← hlast, pending_read _ s.output hstage rfl]
      | cons key keys =>
          rw [read_key hstage]
          have hpending := pending_read (.reading next keys)
            (s.output ++ decoded (s.states.get? key).toList) hstage rfl
          refine settled_iff.mpr ⟨fun hu => ?_, ?_⟩
          · rw [hpending]
            have hmem : sourceID ∈ keys := by simpa [Stage.unread] using hu
            exact hne (by simp [hstage, Stage.unread, hmem])
          · rw [hpending, ← hlast, lastState_append, lastState_append,
              lastState_append]
            by_cases hkey : key = sourceID
            · -- the key is read, but a message says otherwise
              have hsome := hne (by simp [hstage, Stage.unread, hkey])
              obtain ⟨x, hx⟩ := Option.ne_none_iff_exists'.mp hsome
              rw [hx, Option.some_or, Option.some_or]
            · rw [lastState_key h hkey, Option.none_or]
  | idle => simp only [System.step, hstage]; exact hy
  | listing => simp only [System.step, hstage]; exact hy
  | delivering => simp only [System.step, hstage]; exact hy

theorem settled_deliver :
    (s.step .deliver).settled sourceID = s.settled sourceID := by
  cases hstage : s.stage with
  | delivering next =>
      cases hmessage : s.subject[next]? with
      | none => simp only [System.step, hstage, hmessage]
      | some event =>
          rw [deliver_message hstage hmessage]
          unfold System.settled
          rw [hstage, pending_deliver (s.output ++ decoded [event]) hstage
            hmessage, ← List.append_assoc]
          rfl
  | idle => simp only [System.step, hstage]
  | listing => simp only [System.step, hstage]
  | reading => simp only [System.step, hstage]

/-- What is settled stays, until the publisher publishes. -/
theorem settled_step (h : Inv sourceID s) {a : Action}
    (hy : s.settled sourceID = some y)
    (htold : told sourceID (s.step a).published
      = told sourceID s.published) :
    (s.step a).settled sourceID = some y := by
  cases a with
  | publish event idempotencyKey =>
      rw [← hy]
      exact settled_publish_other h htold
  | put key =>
      rw [← hy]
      simp only [System.step, System.put]
      split <;> rfl
  | forget => exact hy
  | subscribe =>
      simp only [System.step]
      split
      case h_1 hstage =>
        have hidle : s.settled sourceID = none := by
          refine settled_none_iff.mpr ⟨by rw [hstage]; rfl, ?_⟩
          unfold System.pending
          rw [hstage]
          rfl
        rw [hidle] at hy
        cases hy
      case h_2 => exact hy
  | list =>
      simp only [System.step]
      split
      case h_1 next hstage =>
        obtain ⟨hne, hlast⟩ := settled_iff.mp hy
        refine settled_iff.mpr ⟨fun _ => ?_, ?_⟩
        · rw [pending_list hstage]
          exact hne (by rw [hstage]; rfl)
        · rw [pending_list hstage]
          exact hlast
      case h_2 => exact hy
  | read => exact settled_read h hy
  | deliver => rw [settled_deliver]; exact hy

-- =================================== keeping

/-- Nothing but `st` is settled for the source. -/
def Open (sourceID st : String) (s : System) : Prop :=
  s.settled sourceID = none ∨ s.settled sourceID = some (some st)

theorem published_emit : (s.emit event).published = s.published := by
  unfold System.emit
  split <;> rfl

/-- Only a publisher publishes. -/
theorem published_step (a : Action) :
    (s.step a).published = s.published
      ∨ ∃ event idempotencyKey, a = .publish event idempotencyKey
        ∧ (∀ state, event.stateEvent = some state →
          (s.putting.get? state.sourceID).isNone)
        ∧ (s.step a).published = s.published ++ [event] := by
  cases a with
  | publish event idempotencyKey =>
      exact (published_publish s event idempotencyKey).imp id
        fun h => ⟨event, idempotencyKey, rfl, h⟩
  | put key =>
      simp only [System.step, System.put]
      split <;> exact .inl rfl
  | forget => exact .inl rfl
  | subscribe =>
      simp only [System.step]
      split <;> exact .inl rfl
  | list =>
      simp only [System.step]
      split <;> exact .inl rfl
  | read =>
      simp only [System.step]
      split
      case h_1 =>
        split
        case h_1 => exact .inl published_emit
        case h_2 => exact .inl rfl
      case h_2 => exact .inl rfl
      case h_3 => exact .inl rfl
  | deliver =>
      simp only [System.step]
      split
      case h_1 =>
        split
        case h_1 => exact .inl published_emit
        case h_2 => exact .inl rfl
      case h_2 => exact .inl rfl

/-- The publish of a state, with its message delivered to whoever has
subscribed. -/
theorem settled_publish_new (h : Inv sourceID s)
    (hstate : event.stateOf sourceID = some st)
    (hfree : (s.putting.get? sourceID).isNone)
    (hnew : idempotencyKey ∉ s.seen) (hvalid : event.valid = true) :
    Open sourceID st (s.publish event idempotencyKey) := by
  have hreached := settled_reached h hnew hvalid hstate
  obtain ⟨state, hevent, rfl, -⟩ := stateOf_eq_some.mp hstate
  unfold System.publish
  rw [hevent]
  simp only
  rw [if_neg (by simpa using hfree)]
  exact hreached

/-- The last state is published in a step that keeps it. -/
theorem open_publish (h : Inv sourceID s)
    (hstate : event.stateOf sourceID = some st)
    (hfree : (s.putting.get? sourceID).isNone)
    (hkeeps : Keeps sourceID st s (.publish event idempotencyKey)) :
    Open sourceID st (s.publish event idempotencyKey) := by
  by_cases hreach : idempotencyKey ∉ s.seen ∧ event.valid = true
  · exact settled_publish_new h hstate hfree hreach.1 hreach.2
  · have hsame : (s.publish event idempotencyKey).settled sourceID
        = s.settled sourceID := by
      refine settled_publish h ?_
      by_cases hseen : idempotencyKey ∈ s.seen
      · exact .inl hseen
      · exact .inr (.inl (by simpa using fun hv => hreach ⟨hseen, hv⟩))
    unfold Open
    rw [hsame]
    rcases hkeeps with hnone | hbusy | hboth | hopen
    · cases hnone.symm.trans hstate
    · simp_all
    · exact absurd hboth hreach
    · exact hopen

/-- The keys that are listed are those of the bucket. -/
theorem unread_listed {next : Nat} :
    Stage.unread sourceID (.reading next
        (s.states.rows.map StreamEvent.sourceID).reverse) = true ↔
      (s.states.get? sourceID).isSome = true := by
  simp only [Stage.unread, List.contains_iff_mem, List.mem_reverse,
    List.mem_map]
  constructor
  · rintro ⟨state, hmem, rfl⟩
    rw [get?_key (mem_def.mpr hmem)]
    rfl
  · intro hkey
    obtain ⟨state, hstate⟩ := Option.isSome_iff_exists.mp hkey
    obtain ⟨hmem, hid⟩ := get?_eq_some.mp hstate
    exact ⟨state, mem_def.mp hmem, hid⟩

/-- The read of the key settles what the bucket tells. -/
theorem settled_read_key (h : Inv sourceID s) {next : Nat}
    (hnone : s.settled sourceID = none)
    (hstage : s.stage = .reading next (sourceID :: keys)) :
    (s.step .read).settled sourceID = some (s.stored sourceID) := by
  obtain ⟨hunread, hpending⟩ := settled_none_iff.mp hnone
  have hkeys := List.nodup_cons.mp (h.keys next (sourceID :: keys) hstage)
  rw [read_key hstage]
  refine settled_iff.mpr ⟨fun hu => ?_, ?_⟩
  · exact absurd (by simpa [Stage.unread] using hu) hkeys.1
  · rw [pending_read _ _ hstage rfl, lastState_append, hpending, Option.none_or,
      lastState_append, h.unread hunread, Option.or_none]
    rfl

/-- The read of another key settles nothing. -/
theorem settled_read_other {next : Nat} {key : String}
    (hnone : s.settled sourceID = none)
    (hstage : s.stage = .reading next (key :: keys))
    (hkey : key ≠ sourceID) : (s.step .read).settled sourceID = none := by
  obtain ⟨hunread, hpending⟩ := settled_none_iff.mp hnone
  rw [read_key hstage]
  refine settled_none_iff.mpr ⟨?_, ?_⟩
  · have hmem : sourceID = key ∨ sourceID ∈ keys := by
      simpa [hstage, Stage.unread] using hunread
    simpa [Stage.unread] using hmem.resolve_left (Ne.symm hkey)
  · rw [pending_read _ _ hstage rfl]
    exact hpending

/-- An open state stays so by a read. -/
theorem open_read (h : Inv sourceID s) (hnone : s.settled sourceID = none)
    (hkeeps : Keeps sourceID st s .read) :
    Open sourceID st (s.step .read) := by
  cases hstage : s.stage with
  | reading next keys =>
      cases keys with
      | nil =>
          have hunread := (settled_none_iff.mp hnone).1
          rw [hstage] at hunread
          cases hunread
      | cons key keys =>
          by_cases hkey : key = sourceID
          · subst hkey
            simp only [Keeps, hstage] at hkeeps
            refine .inr ?_
            rw [settled_read_key h hnone hstage, hkeeps trivial hnone]
          · exact .inl (settled_read_other hnone hstage hkey)
  | idle => simp only [System.step, hstage]; exact .inl hnone
  | listing => simp only [System.step, hstage]; exact .inl hnone
  | delivering => simp only [System.step, hstage]; exact .inl hnone

/-- A step that keeps the last state, and does not publish it. -/
theorem open_step (h : Inv sourceID s) {a : Action}
    (hopen : Open sourceID st s) (hkeeps : Keeps sourceID st s a)
    (htold : told sourceID (s.step a).published
      = told sourceID s.published) : Open sourceID st (s.step a) := by
  rcases hopen with hnone | hsome
  · obtain ⟨hunread, hpending⟩ := settled_none_iff.mp hnone
    cases a with
    | publish event idempotencyKey =>
        exact .inl ((settled_publish_other h htold).trans hnone)
    | put key =>
        simp only [System.step, System.put]
        split <;> exact .inl hnone
    | forget => exact .inl hnone
    | subscribe =>
        simp only [System.step]
        split
        case h_1 hstage =>
          refine .inl (settled_none_iff.mpr ⟨rfl, ?_⟩)
          simp only [System.pending, Stage.next, List.drop_length]
          rfl
        case h_2 => exact .inl hnone
    | list =>
        simp only [System.step]
        split
        case h_1 next hstage =>
          -- the key is in the bucket, and will be read
          simp only [Keeps, hstage] at hkeeps
          refine .inl (settled_none_iff.mpr
            ⟨unread_listed.mpr (hkeeps hnone), ?_⟩)
          rw [pending_list hstage]
          exact hpending
        case h_2 => exact .inl hnone
    | read => exact open_read h hnone hkeeps
    | deliver =>
        unfold Open
        rw [settled_deliver]
        exact .inl hnone
  · exact .inr (settled_step h hsome htold)

/-- A step that does not keep the last state settles another one. -/
theorem settled_lost (h : Inv sourceID s) {a : Action}
    (hlost : ¬ Keeps sourceID st s a) :
    ∃ y ≠ some st, (s.step a).settled sourceID = some y := by
  cases a with
  | publish event idempotencyKey =>
      simp only [Keeps, not_or] at hlost
      obtain ⟨-, -, hreach, hnone, hother⟩ := hlost
      obtain ⟨y, hy⟩ := Option.ne_none_iff_exists'.mp hnone
      refine ⟨y, fun he => hother (he ▸ hy), ?_⟩
      refine (settled_publish h ?_).trans hy
      by_cases hseen : idempotencyKey ∈ s.seen
      · exact .inl hseen
      · exact .inr (.inl (by simpa using fun hv => hreach ⟨hseen, hv⟩))
  | put => exact absurd trivial hlost
  | forget => exact absurd trivial hlost
  | subscribe => exact absurd trivial hlost
  | list =>
      cases hstage : s.stage with
      | listing next =>
          simp only [Keeps, hstage, Classical.not_imp] at hlost
          obtain ⟨hnone, hkey⟩ := hlost
          obtain ⟨hunread, hpending⟩ := settled_none_iff.mp hnone
          refine ⟨none, by simp, ?_⟩
          simp only [System.step, hstage]
          refine settled_iff.mpr
            ⟨fun hu => absurd (unread_listed.mp hu) hkey, ?_⟩
          rw [pending_list hstage, lastState_append, hpending,
            Option.none_or]
          exact h.unread hunread
      | idle => simp [Keeps, hstage] at hlost
      | reading => simp [Keeps, hstage] at hlost
      | delivering => simp [Keeps, hstage] at hlost
  | read =>
      cases hstage : s.stage with
      | reading next keys =>
          cases keys with
          | nil => simp [Keeps, hstage] at hlost
          | cons key keys =>
              simp only [Keeps, hstage, Classical.not_imp] at hlost
              obtain ⟨rfl, hnone, hother⟩ := hlost
              exact ⟨s.stored key, hother, settled_read_key h hnone hstage⟩
      | idle => simp [Keeps, hstage] at hlost
      | listing => simp [Keeps, hstage] at hlost
      | delivering => simp [Keeps, hstage] at hlost
  | deliver => exact absurd trivial hlost

-- ====================================== runs

theorem inv_run (acts : List Action) :
    Inv sourceID (Run.run System.step {} acts) :=
  Run.run_preserves inv_init (fun _ a h => inv_step h a) acts

/-- Publishing is only added to. -/
theorem published_run (acts : List Action) :
    ∃ later, (Run.run System.step s acts).published = s.published ++ later := by
  induction acts generalizing s with
  | nil => exact ⟨[], (List.append_nil _).symm⟩
  | cons a acts ih =>
      obtain ⟨later, hlater⟩ := ih (s := s.step a)
      rw [Run.run_cons, hlater]
      rcases published_step (s := s) a with h | ⟨event, _, _, -, h⟩
      · exact ⟨later, by rw [h]⟩
      · exact ⟨event :: later, by rw [h, List.append_assoc]; rfl⟩

theorem told_append (before after : List StreamEvent) :
    told sourceID (before ++ after)
      = told sourceID before + told sourceID after :=
  List.countP_append

theorem lastState_of_told {events : List StreamEvent}
    (h : told sourceID events = 0) : lastState sourceID events = none := by
  induction events using List.reverseRecOn with
  | nil => rfl
  | append_singleton events e ih =>
      rw [told_snoc] at h
      have hnone : e.stateOf sourceID = none := by
        cases hstate : e.stateOf sourceID with
        | none => rfl
        | some st =>
            rw [hstate, Option.isSome_some, if_pos rfl] at h
            omega
      rw [lastState_snoc, hnone, Option.none_or]
      exact ih (by omega)

/-- When nothing of the source is published any more, what is settled is
what the subscriber learns. -/
theorem settled_run (h : Inv sourceID s)
    (hy : s.settled sourceID = some y) {acts : List Action}
    (htold : told sourceID (Run.run System.step s acts).published
      = told sourceID s.published) :
    (Run.run System.step s acts).settled sourceID = some y := by
  induction acts generalizing s with
  | nil => exact hy
  | cons a acts ih =>
      rw [Run.run_cons] at htold ⊢
      obtain ⟨later, hlater⟩ := published_run (s := s.step a) acts
      obtain ⟨own, hown⟩ := published_run (s := s) [a]
      rw [Run.run_cons, Run.run_nil] at hown
      have hstep : told sourceID (s.step a).published
          = told sourceID s.published := by
        rw [hlater, told_append, hown, told_append] at htold
        rw [hown, told_append]
        omega
      exact ih (inv_step h a) (settled_step h hy hstep)
        (htold.trans hstep.symm)

/-- From the publish of the last state on, nothing else is settled if
every step keeps it. -/
theorem open_run {final : System} {acts : List Action} (h : Inv sourceID s)
    (hfinal : Run.run System.step s acts = final)
    (hlast : lastState sourceID final.published = some st)
    (hopen : told sourceID s.published = told sourceID final.published →
      Open sourceID st s)
    (hkeeps : Run.Along System.step (fun s a =>
      told sourceID (s.step a).published = told sourceID final.published →
        Keeps sourceID st s a) s acts) :
    Open sourceID st final := by
  induction acts generalizing s with
  | nil =>
      cases hfinal
      exact hopen rfl
  | cons a acts ih =>
      rw [Run.run_cons] at hfinal
      refine ih (inv_step h a) hfinal (fun htold => ?_) hkeeps.2
      have hkeep := hkeeps.1 htold
      have hquiet : told sourceID (s.step a).published
          = told sourceID s.published → Open sourceID st (s.step a) :=
        fun hsame => open_step h (hopen (hsame.symm.trans htold)) hkeep hsame
      rcases published_step (s := s) a
        with hsame | ⟨event, idempotencyKey, rfl, hfree, hnew⟩
      · exact hquiet (by rw [hsame])
      · cases hstate : event.stateOf sourceID with
        | none => exact hquiet (by rw [hnew, told_snoc, hstate]; rfl)
        | some x =>
            -- nothing of the source is published after this
            obtain ⟨later, hlater⟩ := published_run
              (s := s.step (.publish event idempotencyKey)) acts
            rw [hfinal] at hlater
            have hnone : lastState sourceID later = none := by
              refine lastState_of_told ?_
              rw [hlater, told_append] at htold
              omega
            rw [hlater, lastState_append, hnone, Option.none_or, hnew,
              lastState_snoc, hstate, Option.some_or] at hlast
            cases hlast
            obtain ⟨state, hevent, rfl, -⟩ := stateOf_eq_some.mp hstate
            exact open_publish h hstate (hfree state hevent) hkeep

/-- When the publisher has finished, and the subscriber has delivered
what it was given, the last state that it delivered is the last one
published exactly if every step since kept it. -/
theorem delivered_iff_kept (acts : List Action)
    (hdone : (Run.run System.step {} acts).Done sourceID)
    (hlast : lastState sourceID (Run.run System.step {} acts).published
      = some st) :
    lastState sourceID (Run.run System.step {} acts).output = some st ↔
      Run.Along System.step (fun s a =>
        told sourceID (s.step a).published
            = told sourceID (Run.run System.step {} acts).published →
          Keeps sourceID st s a) {} acts := by
  have hpending : (Run.run System.step {} acts).pending = [] := by
    unfold System.pending
    rw [hdone.2]
    simp only [Stage.next, List.drop_length]
    rfl
  constructor
  · intro hdelivered
    refine Run.along_of_steps fun before a after hacts htold => ?_
    by_contra hlost
    obtain ⟨y, hy, hsettled⟩ := settled_lost (inv_run before) hlost
    rw [hacts, Run.run_append, Run.run_cons] at htold hdelivered hpending
    have hend := settled_run (inv_step (inv_run before) a) hsettled htold.symm
    have hlearnt := (settled_iff.mp hend).2
    rw [hpending, List.append_nil, hdelivered] at hlearnt
    exact hy hlearnt.symm
  · intro hkeeps
    have hopen := open_run inv_init rfl hlast (fun htold => ?_) hkeeps
    · rcases hopen with hnone | hsome
      · have hunread := (settled_none_iff.mp hnone).1
        rw [hdone.2] at hunread
        cases hunread
      · have hlearnt := (settled_iff.mp hsome).2
        rwa [hpending, List.append_nil] at hlearnt
    · rw [lastState_of_told htold.symm] at hlast
      cases hlast

section Runs

/-- The source goes live. -/
def live : StreamEvent where
  type := "state"
  sourceID := "0b2ab9c0-0b4c-4a55-9d7c-2a3f4c0e2f11"
  state := "live"

/-- The subscriber starts between the two halves of the second Publish,
and reads the key after it was put. -/
theorem delivered_iff_kept_read :
    lastState live.sourceID (Run.run System.step {}
      [.publish { live with state := "offline" } "state:0",
        .put live.sourceID, .publish live "state:1", .subscribe,
        .put live.sourceID, .list, .read, .read]).output = some "live" := by
  refine (delivered_iff_kept _ (by decide) (by decide)).mpr ?_
  refine ⟨fun h => absurd h (by decide), fun h => absurd h (by decide),
    fun _ => .inr (.inr (.inl (by decide))), fun _ => trivial,
    fun _ => trivial, fun _ _ => (by decide), fun _ _ _ => (by decide),
    fun _ => trivial, trivial⟩

/-- The subscriber starts between the two halves of the Publish: the
message was there before it, and the key comes after it has read. -/
theorem state_missed :
    let s := Run.run System.step {}
      [.publish live "state:1", .subscribe, .list, .read,
        .put live.sourceID]
    s.Done live.sourceID ∧ lastState live.sourceID s.published = some "live"
      ∧ lastState live.sourceID s.output = none :=
  ⟨by decide, by decide, by decide⟩

end Runs

end StreamBrew.Chat.Broker
