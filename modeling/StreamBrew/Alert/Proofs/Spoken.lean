/-
A playback that is prepared can be spoken.

# The rows

A row is given the status `preparing` when it is queued, by one condition
on its message, and no statement writes the message of a row again. So
the condition holds of every row that prepares (`Speaks`), and what is
left is what the condition means for the worker.

# The text

The worker cuts the message before it normalizes it. A message that is
cut ends in an ellipsis, which is no white space, and one that is not cut
is there as a whole: what the condition has found is never lost. Joined
fields are no longer than the text they are taken from, so the limits are
kept, whichever characters there are.
-/
import Mathlib.Data.String.Basic
import StreamBrew.Alert.Speech
import StreamBrew.Alert.Proofs.Queueing
import StreamBrew.Alert.Proofs.Speech

namespace StreamBrew.Alert

open Relational Text

variable {db : Db}

-- ====================================== text

/-- A message with something to say in its first characters. -/
def Speakable (message : String) : Prop :=
  ∃ c ∈ message.toList.take maxAlertMessageRunes, c ∉ ttsWhitespace

theorem speakable_iff (message : String) :
    speakable (some message) = true ↔ Speakable message := by
  unfold speakable Speakable translate left
  rw [decide_eq_true_iff, ne_eq, String.ofList_eq_empty_iff,
    String.toList_ofList, List.filter_eq_nil_iff, not_forall]
  simp

theorem utf8ByteSize_le (text : String) :
    text.utf8ByteSize ≤ 4 * text.toList.length := by
  have hchars : ∀ s : Chars, (String.ofList s).utf8ByteSize ≤ 4 * s.length := by
    intro s
    rw [String.utf8ByteSize_ofList]
    induction s with
    | nil => exact Nat.zero_le _
    | cons c s ih =>
        have hc := c.utf8Size_le_four
        rw [String.utf8Len_cons, List.length_cons]
        omega
  have h := hchars text.toList
  rwa [String.ofList_toList] at h

/-- A cut message is within the limit of characters. -/
theorem length_ttsPlaybackText (text : String) :
    (ttsPlaybackText text).toList.length ≤ maxTTSTextRunes := by
  unfold ttsPlaybackText
  dsimp only
  split
  case isTrue h => exact h
  case isFalse h =>
    rw [String.toList_ofList, List.length_append, List.length_take]
    simp only [List.length_cons, List.length_nil]
    unfold maxTTSTextRunes at *
    omega

/-- What there is to say is there after the cut, or the ellipsis is. -/
theorem ttsPlaybackText_spoken {text : String} {c : Char}
    (hc : c ∈ text.toList) (hspace : c ∉ ttsWhitespace) :
    ∃ d ∈ (ttsPlaybackText text).toList, d ∉ ttsWhitespace := by
  unfold ttsPlaybackText
  dsimp only
  split
  case isTrue => exact ⟨c, hc, hspace⟩
  case isFalse =>
    rw [String.toList_ofList]
    exact ⟨'…', List.mem_append_right _ (List.mem_singleton_self _),
      by decide⟩

/-- Joined fields keep the limits of their text. -/
theorem length_joinFields_le (text : String) :
    (joinFields text).toList.length ≤ text.toList.length := by
  unfold joinFields
  rw [String.toList_ofList]
  exact length_join_fields_le ' '

theorem joinFields_ne_empty {text : String} {c : Char}
    (hc : c ∈ text.toList) (hspace : c ∉ ttsWhitespace) :
    joinFields text ≠ "" := by
  unfold joinFields
  rw [ne_eq, String.ofList_eq_empty_iff]
  refine join_fields_ne_nil ' ' hc ?_
  simpa using hspace

/-- What becomes of a message that is to be spoken: a text within the
limits, unless a control character is left in it. -/
def Spoken (message : String) : Prop :=
  (∃ text, normalizeTTSText (ttsPlaybackText message) = .ok text
      ∧ text.toList.length ≤ maxTTSTextRunes
      ∧ text.utf8ByteSize ≤ maxTTSTextBytes)
    ∨ ∃ c ∈ (joinFields (ttsPlaybackText message)).toList,
      isControl c = true
        ∧ normalizeTTSText (ttsPlaybackText message) = .error (.control c)

/-- A speakable message is one that can be spoken. -/
theorem Speakable.spoken {message : String} (h : Speakable message) :
    Spoken message := by
  obtain ⟨c, hc, hspace⟩ := h
  obtain ⟨d, hd, hdspace⟩ :=
    ttsPlaybackText_spoken (List.mem_of_mem_take hc) hspace
  have hcut := length_ttsPlaybackText message
  have hinput := utf8ByteSize_le (ttsPlaybackText message)
  have hjoined := length_joinFields_le (ttsPlaybackText message)
  have hbytes := utf8ByteSize_le (joinFields (ttsPlaybackText message))
  have hne := joinFields_ne_empty hd hdspace
  unfold Spoken normalizeTTSText
  generalize ttsPlaybackText message = text at *
  have hlimits : maxTTSTextRunes * 4 ≤ maxTTSTextBytes := by decide
  rw [if_neg (by omega)]
  simp only
  rw [if_neg hne, if_neg (by omega)]
  cases hfind : (joinFields text).toList.find? isControl with
  | none => exact Or.inl ⟨joinFields text, rfl, by omega, by omega⟩
  | some control =>
      exact Or.inr ⟨control, List.mem_of_find?_eq_some hfind,
        List.find?_some hfind, rfl⟩

-- ====================================== rows

/-- What is stored of a message has to say what the message has. -/
theorem initialStatus_speakable {c : Configuration}
    {message : Option String} (h : initialStatus c message = .preparing) :
    speakable (presentedMessage message) = true := by
  unfold initialStatus at h
  split at h
  case isFalse => cases h
  case isTrue hspeak =>
    cases message with
    | none => cases hspeak.2
    | some text =>
        obtain ⟨d, hd, hspace⟩ := (speakable_iff text).mp hspeak.2
        refine (speakable_iff _).mpr ⟨d, ?_, hspace⟩
        unfold left
        rw [String.toList_ofList, List.take_take, Nat.min_self]
        exact hd

/-- A row that prepares has something to say. -/
def Speaks (r : Playback) : Prop :=
  r.status = .preparing → speakable r.message = true

theorem rowRule_speaks : RowRule fun _ r => Speaks r where
  donations h _ := h
  next := by
    intro db has g r r' hn h hstatus
    have hr := hn.preparing hstatus
    have hmessage : r'.message = r.message :=
      congrArg Content.message hn.content
    rw [hmessage]
    exact h hr
  queued := by
    intro db snapshot status hqueued _ draw sequence userID hstatus
    cases hqueued with
    | incoming => exact initialStatus_speakable hstatus
    | test =>
        exact (by decide :
          speakable (some "This is a test donation alert.") = true)
    | replay => exact initialStatus_speakable hstatus

-- ==================================== result

/-- A claim for preparation finds a message. -/
theorem claimPreparation_ok (hi : Inv db) (now : Time)
    (locked : List Nat) :
    ∃ result, (claimPreparation now locked db).1 = .ok result := by
  have hswept : Inv (releaseExhausted now (expireAll now db)) :=
    (hi.effect (g := {}) (effect_expireAll now)).effect (g := {})
      (effect_releaseExhausted now)
  unfold claimPreparation
  simp only
  split
  case h_1 => exact ⟨none, rfl⟩
  case h_2 candidate hfirst =>
    obtain ⟨hmem, ⟨hpreparable, -⟩, -⟩ := Table.first_eq_some hfirst
    have hmessage := ((hswept.shape candidate hmem).speech hpreparable.1).1
    split
    case h_1 hnone => exact absurd hnone hmessage
    case h_2 => exact ⟨_, rfl⟩

/-- In every reachable state what prepares has a message with something to
say, and a claim never fails for want of one; and whatever message has
something to say is spoken, within the limits, unless there is a control
character in it. -/
theorem preparing_speakable (acts : List Action) :
    let db := Run.run apply Db.init acts
    (∀ r ∈ db.playbacks, r.status = .preparing →
        ∃ message, r.message = some message ∧ Speakable message)
      ∧ (∀ message, Speakable message → Spoken message)
      ∧ ∀ now locked,
        ∃ result, (claimPreparation now locked db).1 = .ok result := by
  intro db
  have hreachable : Reachable db := ⟨acts, rfl⟩
  refine ⟨fun r hr hstatus => ?_, fun _ => Speakable.spoken,
    claimPreparation_ok hreachable.inv⟩
  have hspeak := rowRule_speaks.reachable hreachable r hr hstatus
  cases hmessage : r.message with
  | none =>
      rw [hmessage] at hspeak
      cases hspeak
  | some message =>
      rw [hmessage] at hspeak
      exact ⟨message, rfl, (speakable_iff message).mp hspeak⟩

end StreamBrew.Alert
