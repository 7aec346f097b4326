/-
Messages that do not decode: retried twice, then terminated with a dead
letter, or retried where the letter could not be stored (`Handled`).

A letter that is left out as a duplicate has the identifier of one that is
stored; that one carries the same message (`Held`), as long as no two of
what is hashed in a run have the same sum (`CollisionFree`).
-/
import StreamBrew.Chat.Delivery

namespace StreamBrew.Chat.Delivery

open Text
open Run (run)

variable {broker : Broker}

-- =============================== identifiers

theorem hexDigit_injective {m n : Nat} (hm : m < 16) (hn : n < 16)
    (h : hexDigit m = hexDigit n) : m = n := by
  have hall : ∀ m < 16, ∀ n < 16, hexDigit m = hexDigit n → m = n := by decide
  exact hall m hm n hn h

/-- Different digests are written differently. -/
theorem hexEncode_injective {a b : Bytes} (h : hexEncode a = hexEncode b) :
    a = b := by
  induction a generalizing b with
  | nil =>
      cases b with
      | nil => rfl
      | cons y b => cases h
  | cons x a ih =>
      cases b with
      | nil => cases h
      | cons y b =>
          injection h with hhigh hrest
          injection hrest with hlow hrest
          have hx := x.toNat_lt
          have hy := y.toNat_lt
          have hhigh' := hexDigit_injective (by omega) (by omega) hhigh
          have hlow' := hexDigit_injective (by omega) (by omega) hlow
          have heq : x = y := UInt8.toNat_inj.mp (by omega)
          rw [heq, ih hrest]

/-- A subject ends at the first zero byte. -/
theorem digest_injective {subject subject' : Subject} {payload payload' : Bytes}
    (h : digest subject payload = digest subject' payload') :
    subject = subject' ∧ payload = payload' := by
  have hcut := cut_before (d := (0 : UInt8)) (s := subject.text) (t := payload)
    fun c hc heq => subject.noZero (heq ▸ hc)
  have hcut' := cut_before (d := (0 : UInt8)) (s := subject'.text)
    (t := payload') fun c hc heq => subject'.noZero (heq ▸ hc)
  unfold digest at h
  rw [h, hcut'] at hcut
  obtain ⟨htext, hpayload⟩ := Prod.mk.injEq .. ▸ hcut
  cases subject
  cases subject'
  cases htext
  exact ⟨rfl, (Option.some.inj hpayload).symm⟩

/-- What a step may store a letter of. -/
def source (broker : Broker) : Action → Option (Subject × Bytes)
  | .entry key value _ _ => some (entrySubject broker key, value)
  | .deliver message _ _ => some (message.subject, message.data)
  | .other sourceSubject payload _ _ => some (sourceSubject, payload)
  | .listen | .stop => none

/-- No two of what a run hashes have the same sum. -/
def CollisionFree (broker : Broker) (actions : List Action) : Prop :=
  ∀ a ∈ actions, ∀ b ∈ actions, ∀ x ∈ source broker a, ∀ y ∈ source broker b,
    broker.sum256 (digest x.1 x.2) = broker.sum256 (digest y.1 y.2) →
      digest x.1 x.2 = digest y.1 y.2

-- =================================== letters

/-- The first bytes of a message, and where it came from. -/
def Carries (letter : StoredDeadLetter) (subject : Subject) (data : Bytes) :
    Prop :=
  letter.sourceSubject = subject.text
    ∧ letter.payload = data.take deadLetterPayloadLimit
    ∧ letter.payloadTruncated = decide (data.length > deadLetterPayloadLimit)

/-- Every letter carries what its identifier was made of. -/
def Held (broker : Broker) (actions : List Action) (stored : List Stored) :
    Prop :=
  ∀ r ∈ stored, ∃ a ∈ actions, ∃ x ∈ source broker a,
    r.id = messageID broker x.1 x.2 ∧ Carries r.letter x.1 x.2

/-- Letters of one identifier are a window apart. -/
def Apart (stored : List Stored) : Prop :=
  stored.Pairwise fun r r' =>
    r.id = r'.id → duplicateWindow ≤ r'.storedAt - r.storedAt

section Store

variable {stored : List Stored} {attempt : Attempt} {subject : Subject}
  {payload : Bytes} {failure : String} {actions : List Action} {a : Action}

/-- A publication within the window is dropped, or the letter is there. -/
theorem append_cases (attempt : Attempt) (id : Chars)
    (letter : StoredDeadLetter) (stored : List Stored) :
    append attempt id letter stored = stored
        ∧ (∃ r ∈ stored, r.id = id)
      ∨ append attempt id letter stored
          = stored ++ [⟨id, letter, attempt.arrivesAt⟩]
        ∧ ∀ r ∈ stored, r.id = id →
          duplicateWindow ≤ attempt.arrivesAt - r.storedAt := by
  unfold append
  split
  case isTrue h =>
    obtain ⟨r, hr, hid⟩ := List.any_eq_true.mp h
    rw [Bool.and_eq_true, decide_eq_true_eq] at hid
    exact Or.inl ⟨rfl, r, hr, hid.1⟩
  case isFalse h =>
    refine Or.inr ⟨rfl, fun r hr hid => ?_⟩
    refine le_of_not_gt fun hlt => h (List.any_eq_true.mpr ⟨r, hr, ?_⟩)
    rw [Bool.and_eq_true, decide_eq_true_eq, Bool.or_eq_true,
      decide_eq_true_eq]
    exact ⟨hid, Or.inl hlt⟩

theorem Apart.append (h : Apart stored) (id : Chars)
    (letter : StoredDeadLetter) :
    Apart (append attempt id letter stored) := by
  rcases append_cases attempt id letter stored with ⟨heq, -⟩ | ⟨heq, hnew⟩
  · rwa [heq]
  · rw [heq]
    refine List.pairwise_append.mpr ⟨h, List.pairwise_singleton _ _, ?_⟩
    intro r hr r' hr'
    rw [List.mem_singleton.mp hr']
    exact hnew r hr

theorem Apart.store (h : Apart stored) :
    Apart (store broker attempt subject payload failure stored).1 := by
  unfold Delivery.store
  simp only
  split
  · exact h.append _ _
  · exact h.append _ _
  · exact h

theorem Held.append (h : Held broker actions stored) (ha : a ∈ actions)
    (hsource : source broker a = some (subject, payload)) :
    Held broker actions (append attempt (messageID broker subject payload)
      (deadLetter attempt.now subject payload failure) stored) := by
  rcases append_cases attempt (messageID broker subject payload)
    (deadLetter attempt.now subject payload failure) stored
    with ⟨heq, -⟩ | ⟨heq, -⟩
  · rwa [heq]
  · rw [heq]
    intro r hr
    rcases List.mem_append.mp hr with hr | hr
    · exact h r hr
    · rw [List.mem_singleton.mp hr]
      exact ⟨a, ha, _, hsource, rfl, rfl, rfl, rfl⟩

theorem Held.store (h : Held broker actions stored) (ha : a ∈ actions)
    (hsource : source broker a = some (subject, payload)) :
    Held broker actions
      (store broker attempt subject payload failure stored).1 := by
  unfold Delivery.store
  simp only
  split
  · exact h.append ha hsource
  · exact h.append ha hsource
  · exact h

/-- Where the broker said so, a letter of the message is stored. -/
theorem carried_of_stored (h : Held broker actions stored) (ha : a ∈ actions)
    (hsource : source broker a = some (subject, payload))
    (hfree : CollisionFree broker actions)
    (hsaid : (store broker attempt subject payload failure stored).2 = true) :
    ∃ r ∈ (store broker attempt subject payload failure stored).1,
      r.id = messageID broker subject payload
        ∧ Carries r.letter subject payload := by
  unfold Delivery.store at hsaid ⊢
  simp only at hsaid ⊢
  split at hsaid
  case h_2 => cases hsaid
  case h_3 => cases hsaid
  case h_1 =>
    simp only
    rcases append_cases attempt (messageID broker subject payload)
      (deadLetter attempt.now subject payload failure) stored
      with ⟨heq, r, hr, hid⟩ | ⟨heq, -⟩
    · rw [heq]
      obtain ⟨b, hb, y, hy, hid', hcarries⟩ := h r hr
      have hsum := hexEncode_injective (hid.symm.trans hid')
      obtain ⟨hsubject, hpayload⟩ :=
        digest_injective (hfree a ha b hb _ hsource y hy hsum)
      rw [← hsubject, ← hpayload] at hcarries
      exact ⟨r, hr, hid, hcarries⟩
    · rw [heq]
      exact ⟨_, List.mem_append_right _ (List.mem_singleton_self _), rfl, rfl,
        rfl, rfl⟩

end Store

-- ====================================== runs

section Steps

variable {s : State} {action : Action} {actions : List Action}

theorem sendEvent_deadLetters (s : State) (event : StreamEvent)
    (sent : Bool) : (sendEvent s event sent).1.deadLetters = s.deadLetters := by
  unfold sendEvent
  split <;> rfl

/-- A step leaves the letters, or stores one of its own. -/
theorem deadLetters_step (broker : Broker) (s : State) (action : Action) :
    (step broker s action).deadLetters = s.deadLetters
      ∨ ∃ attempt subject payload failure,
        source broker action = some (subject, payload)
          ∧ (step broker s action).deadLetters
            = (store broker attempt subject payload failure
              s.deadLetters).1 := by
  unfold step exec
  cases action with
  | listen =>
      refine Or.inl ?_
      simp only
      split <;> rfl
  | stop => exact Or.inl rfl
  | other subject payload failure attempt =>
      exact Or.inr ⟨attempt, subject, payload, failure, rfl, rfl⟩
  | entry key value sent attempt =>
      simp only
      split
      case isFalse => exact Or.inl rfl
      case isTrue =>
        unfold readEntry
        split
        case isTrue => exact Or.inl rfl
        case isFalse =>
          split
          case h_1 failure _ =>
            exact Or.inr ⟨attempt, entrySubject broker key, value, failure,
              rfl, rfl⟩
          case h_2 event _ => exact Or.inl (sendEvent_deadLetters s event sent)
  | deliver message sent attempt =>
      simp only
      split
      case isFalse => exact Or.inl rfl
      case isTrue =>
        unfold deliver
        split
        case h_1 failure _ =>
          unfold handlePoisonMessage
          split
          case isTrue => exact Or.inl rfl
          case isFalse =>
            exact Or.inr ⟨attempt, message.subject, message.data, failure,
              rfl, rfl⟩
        case h_2 event _ => exact Or.inl (sendEvent_deadLetters s event sent)

theorem Held.mono {stored : List Stored} (h : Held broker actions stored)
    (action : Action) : Held broker (actions ++ [action]) stored := by
  intro r hr
  obtain ⟨a, ha, hrest⟩ := h r hr
  exact ⟨a, List.mem_append_left _ ha, hrest⟩

/-- In every run, letters come from deliveries and are apart. -/
theorem held_run (broker : Broker) (actions : List Action) :
    Held broker actions
        (run (step broker) initial actions).deadLetters
      ∧ Apart (run (step broker) initial actions).deadLetters := by
  induction actions using List.reverseRecOn with
  | nil => exact ⟨(fun _ hr => nomatch hr), List.Pairwise.nil⟩
  | append_singleton actions action ih =>
      rw [Run.run_snoc]
      obtain ⟨hheld, hapart⟩ := ih
      rcases deadLetters_step broker (run (step broker) initial actions) action
        with heq | ⟨attempt, subject, payload, failure, hsource, heq⟩
      · rw [heq]
        exact ⟨hheld.mono action, hapart⟩
      · rw [heq]
        exact ⟨(hheld.mono action).store (by simp) hsource, hapart.store⟩

end Steps

-- ================================== messages

/-- The payload of a message is not decoded. -/
def Rejected (broker : Broker) (message : Msg) : Prop :=
  ∃ failure, decodeStreamEvent broker message.data = .error failure

/-- What becomes of a message that is delivered. -/
structure Handled (broker : Broker) (actions : List Action) (message : Msg)
    (attempt : Attempt) (after : State) (effects : List Effect) : Prop where
  retried : Rejected broker message →
    ∀ n, message.numDelivered = some n → n < 3 → effects = [.nak]
  kept : Rejected broker message →
    (∀ n, message.numDelivered = some n → 3 ≤ n) →
    attempt.outcome = .stored →
    effects = [.store (messageID broker message.subject message.data), .term]
  refused : Rejected broker message →
    (∀ n, message.numDelivered = some n → 3 ≤ n) →
    attempt.outcome ≠ .stored →
    effects = [.store (messageID broker message.subject message.data), .nak]
  terminated : CollisionFree broker actions → .term ∈ effects →
    ∃ r ∈ after.deadLetters,
      r.id = messageID broker message.subject message.data
        ∧ Carries r.letter message.subject message.data
  acknowledged : .ack ∈ effects →
    ∃ event, decodeStreamEvent broker message.data = .ok event
      ∧ effects = [.hand event, .ack]

section Messages

variable {s : State} {message : Msg} {attempt : Attempt} {failure : String}
  {actions : List Action} {a : Action}

theorem store_said (broker : Broker) (attempt : Attempt) (subject : Subject)
    (payload : Bytes) (failure : String) (stored : List Stored) :
    (store broker attempt subject payload failure stored).2 = true
      ↔ attempt.outcome = .stored := by
  unfold store
  cases attempt.outcome <;> simp

/-- One that does not decode. -/
theorem handled_poison (hheld : Held broker actions s.deadLetters)
    (ha : a ∈ actions)
    (hsource : source broker a = some (message.subject, message.data))
    (hrejected : decodeStreamEvent broker message.data = .error failure) :
    Handled broker actions message attempt
      (handlePoisonMessage broker s message failure attempt).1
      (handlePoisonMessage broker s message failure attempt).2 := by
  have hnotOk : ∀ event,
      decodeStreamEvent broker message.data ≠ .ok event := by
    intro event hok
    rw [hrejected] at hok
    cases hok
  have hsaid := store_said broker attempt message.subject message.data failure
    s.deadLetters
  unfold handlePoisonMessage
  split
  case isTrue hearly =>
    obtain ⟨n, hn, hlt⟩ := (Option.any_eq_true _ _).mp hearly
    have hlt' : n < 3 := of_decide_eq_true hlt
    refine ⟨fun _ _ _ _ => rfl, fun _ hlate => ?_, fun _ hlate => ?_, ?_, ?_⟩
    · exact absurd (hlate n hn) (by omega)
    · exact absurd (hlate n hn) (by omega)
    · simp
    · simp
  case isFalse hlate =>
    have hlate' : ∀ n, message.numDelivered = some n → ¬n < 3 := by
      intro n hn hlt
      exact hlate ((Option.any_eq_true _ _).mpr ⟨n, hn, decide_eq_true hlt⟩)
    simp only
    refine ⟨fun _ n hn hlt => absurd hlt (hlate' n hn),
      fun _ _ houtcome => ?_, fun _ _ houtcome => ?_, fun hfree hterm => ?_, ?_⟩
    · rw [if_pos (hsaid.mpr houtcome)]
    · rw [if_neg fun hyes => houtcome (hsaid.mp hyes)]
    · refine carried_of_stored hheld ha hsource hfree ?_
      by_contra hno
      rw [if_neg hno] at hterm
      simp at hterm
    · intro hack
      split at hack <;> simp at hack

/-- An event is sent and acknowledged, or the subscription ends. -/
theorem handled_event {event : StreamEvent} (sent : Bool)
    (hok : decodeStreamEvent broker message.data = .ok event) :
    Handled broker actions message attempt (sendEvent s event sent).1
      ((sendEvent s event sent).2 ++ if sent then [.ack] else []) := by
  have hnot : ¬Rejected broker message := by
    rintro ⟨failure, hrejected⟩
    rw [hok] at hrejected
    cases hrejected
  have heffects : (sendEvent s event sent).2 ++ (if sent then [.ack] else [])
      = if sent then [.hand event, .ack] else [] := by
    cases sent <;> rfl
  rw [heffects]
  refine ⟨fun h => absurd h hnot, fun h => absurd h hnot,
    fun h => absurd h hnot, fun _ hterm => ?_, fun hack => ⟨event, hok, ?_⟩⟩
  · split at hterm <;> simp at hterm
  · split at hack
    case isTrue hsent => exact if_pos hsent
    case isFalse => cases hack

end Messages

/-- Every message that a stream is given is handled, whatever it was given
before and whatever became of its letters; and no letter is stored twice
within the window. -/
theorem stream_handled (broker : Broker) (actions : List Action) :
    (∀ before message sent attempt after,
        actions = before ++ .deliver message sent attempt :: after →
        (run (step broker) initial before).stage = .delivering →
        Handled broker actions message attempt
          (exec broker (run (step broker) initial before)
            (.deliver message sent attempt)).1
          (exec broker (run (step broker) initial before)
            (.deliver message sent attempt)).2)
      ∧ Apart (run (step broker) initial actions).deadLetters := by
  refine ⟨?_, (held_run broker actions).2⟩
  rintro before message sent attempt after rfl hstage
  have ha : Action.deliver message sent attempt
      ∈ before ++ .deliver message sent attempt :: after := by simp
  have hheld : Held broker (before ++ .deliver message sent attempt :: after)
      (run (step broker) initial before).deadLetters := by
    intro r hr
    obtain ⟨b, hb, hrest⟩ := (held_run broker before).1 r hr
    exact ⟨b, List.mem_append_left _ hb, hrest⟩
  unfold exec
  simp only
  rw [if_pos hstage]
  unfold deliver
  split
  case h_1 failure hrejected =>
    exact handled_poison hheld ha rfl hrejected
  case h_2 event hok => exact handled_event sent hok

/-- The third delivery of a message without a type. -/
private def emptyObject : Msg :=
  ⟨⟨bytes "chat.user.7".toList, by decide⟩, bytes "{}".toList, some 3⟩

/-- The digest of that message. -/
private def sum : Bytes :=
  [0x62, 0x67, 0xA8, 0x63, 0x92, 0x1D, 0xEC, 0xDB,
    0xD9, 0xE6, 0xA4, 0xC6, 0xAC, 0xFB, 0xFE, 0x45,
    0xAC, 0xEA, 0x70, 0xB7, 0xCE, 0x98, 0xCA, 0x7A,
    0x92, 0x52, 0x25, 0xF2, 0x73, 0xE2, 0xB4, 0xC6]

/-- A broker that knows this message only. -/
private def onlyEmpty : Broker where
  unmarshal _ := .ok { type := "" }
  sum256 b :=
    if b = digest emptyObject.subject emptyObject.data then sum else []
  stateBucket := ⟨bytes "chat_source_states".toList, by decide⟩
  userID := 7

/-- An empty object at its third delivery. -/
theorem stream_handled_emptyObject :
    (exec onlyEmpty ⟨.delivering, []⟩
        (.deliver emptyObject true ⟨0, 0, false, .stored⟩)).2
      = [.store (hexEncode sum), .term]
      ∧ ∃ r ∈ (exec onlyEmpty ⟨.delivering, []⟩
          (.deliver emptyObject true ⟨0, 0, false, .stored⟩)).1.deadLetters,
        r.id = messageID onlyEmpty emptyObject.subject emptyObject.data
          ∧ Carries r.letter emptyObject.subject emptyObject.data := by
  have hfree : CollisionFree onlyEmpty
      [.listen, .deliver emptyObject true ⟨0, 0, false, .stored⟩] := by
    have hsource : ∀ a ∈ [Action.listen,
          .deliver emptyObject true ⟨0, 0, false, .stored⟩],
        ∀ x ∈ source onlyEmpty a,
          x = (emptyObject.subject, emptyObject.data) := by
      intro a ha x hx
      rcases List.mem_pair.mp ha with rfl | rfl
      · cases hx
      · exact (Option.mem_some_iff.mp hx).symm
    intro a ha b hb x hx y hy _
    rw [hsource a ha x hx, hsource b hb y hy]
  have hhandled := (stream_handled onlyEmpty [.listen,
      .deliver emptyObject true ⟨0, 0, false, .stored⟩]).1
    [.listen] emptyObject true ⟨0, 0, false, .stored⟩ [] rfl rfl
  have hrejected : Rejected onlyEmpty emptyObject :=
    ⟨"invalid chat stream event type", by decide⟩
  have hkept := hhandled.kept hrejected (fun n hn => by
    cases hn
    exact Nat.le_refl 3) rfl
  have hterm := hhandled.terminated hfree (by
    rw [hkept]
    simp)
  have hid : messageID onlyEmpty emptyObject.subject emptyObject.data
      = hexEncode sum := by
    unfold messageID onlyEmpty
    simp
  rw [hid] at hkept
  exact ⟨hkept, hterm⟩

end StreamBrew.Chat.Delivery
