/-
The playback of an incoming donation satisfies the constraints of its
table.

What is cut and what is copied does so for a reason of its own: a text
that is cut to a length is no longer, and a column of the configuration
or of the donation has the same constraint there. The playback expires
after it is created, since the donation is more than a millisecond
younger than the greatest age, which is more than rounding takes away.
-/
import StreamBrew.Alert.Checks

namespace StreamBrew.Alert

-- ===================================== texts

theorem length_left (text : String) (n : Nat) : (left text n).length ≤ n := by
  unfold left
  rw [String.length_ofList]
  exact List.length_take_le n text.toList

theorem all_nullifEmpty {p : String → Bool} {text : String}
    (h : p text = true) : (nullifEmpty text).all p = true := by
  unfold nullifEmpty
  split
  case isTrue => rfl
  case isFalse => exact h

theorem length_presentedAuthor (author : Option String) :
    (presentedAuthor author).all (fun author => author.length ≤ 200)
      = true := by
  cases author with
  | none => rfl
  | some a =>
      have hlength : (left (trim a) maxAlertAuthorRunes).length ≤ 200 :=
        length_left (trim a) maxAlertAuthorRunes
      unfold presentedAuthor
      rw [Option.bind_some]
      exact all_nullifEmpty (decide_eq_true hlength)

theorem length_presentedMessage (message : Option String) :
    (presentedMessage message).all (fun message => message.length ≤ 2000)
      = true := by
  cases message with
  | none => rfl
  | some m =>
      have hlength : (left m maxAlertMessageRunes).length ≤ 2000 :=
        length_left m maxAlertMessageRunes
      exact decide_eq_true hlength

-- ===================================== times

theorem jsDate_lt {t u : Time} (h : t + millisecond < u) :
    jsDate t < jsDate u := by
  have hms : millisecond = 1000 := rfl
  have ht := (jsDate_near t).2
  have hu := (jsDate_near u).1
  rw [hms] at h
  linarith

theorem addInterval_ok {t interval : Time} (h : InTimestamps (t + interval)) :
    addInterval t interval = .ok (t + interval) := by
  unfold addInterval
  rw [if_pos h]

-- ======================================= row

section Row

variable {acceptedAt expiresAt : Time} {configuration : Configuration}
  {donation : DonationRow}

/-- The row that an admitted donation makes satisfies every check. -/
theorem incomingRow_checked (hconfiguration : configuration.Admitted)
    (hdonation : donation.Admitted)
    (hexpiry : acceptedAt + millisecond < expiresAt)
    (draw : Draw) (sequence : Nat) :
    (incomingRow draw sequence acceptedAt expiresAt configuration
      donation).Checked := by
  intro check hcheck
  cases check with
  | accentColor => exact hconfiguration.accentColor
  | author => exact length_presentedAuthor donation.author
  | donation => rfl
  | expiry => exact decide_eq_true (jsDate_lt hexpiry)
  | displayDuration =>
      have h := hconfiguration.displayDuration
      exact Bool.and_eq_true_iff.mpr
        ⟨decide_eq_true h.1, decide_eq_true h.2⟩
  | lastError => rfl
  | message => exact length_presentedMessage donation.message
  | playerGeneration => rfl
  | preparationGeneration => rfl
  | soundVolume => exact decide_eq_true hconfiguration.soundVolume
  | ttsVoice => exact hconfiguration.ttsVoice
  | ttsVolume => exact decide_eq_true hconfiguration.ttsVolume
  | amount => exact decide_eq_true hdonation.amount
  | currency => exact hdonation.currency
  | preparationAttempts => rfl

theorem insertChecked_ok {r : Playback} (h : r.Checked) :
    insertChecked r = .ok (some r) := by
  unfold insertChecked
  rw [if_pos h]

/-- There is room within the timestamps ten minutes around a time. -/
structure Room (acceptedAt : Time) : Prop where
  earliest : InTimestamps (acceptedAt - maxAlertAge)
  latest : InTimestamps (acceptedAt + maxAlertAge)

/-- Which donations are young enough is computed without an error. -/
theorem Room.earliestIncoming_ok (h : Room acceptedAt) :
    earliestIncoming acceptedAt
      = .ok (acceptedAt - maxAlertAge + millisecond) := by
  have hage : maxAlertAge = 600000000 := rfl
  have hms : millisecond = 1000 := rfl
  have hlow := h.earliest.1
  have hhigh := h.latest.2
  have hearliest : InTimestamps (acceptedAt + -maxAlertAge) := h.earliest
  have hmiddle : InTimestamps (acceptedAt + -maxAlertAge + millisecond) := by
    rw [hage] at hlow hhigh ⊢
    rw [hms]
    exact ⟨by linarith, by linarith⟩
  unfold earliestIncoming
  rw [addInterval_ok hearliest]
  exact addInterval_ok hmiddle

theorem before_latest (t : Time) : t + millisecond < t + maxAlertAge := by
  have hage : maxAlertAge = 600000000 := rfl
  have hms : millisecond = 1000 := rfl
  rw [hage, hms]
  linarith

/-- What the statement does with a donation of a time. -/
theorem insertIncoming_at (hroom : Room acceptedAt) {t : Time}
    (hoccurred : donation.occurredAt = .at t)
    (hexpiry : InTimestamps (t + maxAlertAge)) (userID : UserID)
    (source : Source) (draw : Draw) (sequence : Nat) (sourceEnabled : Bool) :
    insertIncoming userID source acceptedAt draw sequence configuration
        sourceEnabled donation
      = if (donation.userID = userID ∧ donation.source = source
            ∧ configuration.enabled ∧ sourceEnabled)
          ∧ t > acceptedAt - maxAlertAge + millisecond then
          insertChecked (incomingRow draw sequence acceptedAt
            (min (acceptedAt + maxAlertAge) (t + maxAlertAge)) configuration
            donation)
        else .ok none := by
  unfold insertIncoming
  by_cases hbase : donation.userID = userID ∧ donation.source = source
      ∧ configuration.enabled ∧ sourceEnabled
  · rw [if_pos hbase, hroom.earliestIncoming_ok]
    simp only [bind, Except.bind, hoccurred]
    by_cases hyoung : t > acceptedAt - maxAlertAge + millisecond
    · rw [if_pos hyoung, if_pos ⟨hbase, hyoung⟩, addInterval_ok hroom.latest,
        addInterval_ok hexpiry]
    · rw [if_neg hyoung, if_neg fun h => hyoung h.2]
  · rw [if_neg hbase, if_neg fun h => hbase h.1]

/-- A young donation expires later than it was accepted. -/
theorem before_expiry {t : Time}
    (h : t > acceptedAt - maxAlertAge + millisecond) :
    acceptedAt + millisecond
      < min (acceptedAt + maxAlertAge) (t + maxAlertAge) := by
  refine lt_min (before_latest acceptedAt) ?_
  linarith

/-- For a donation and a configuration that their tables admit, and times
with ten minutes of room within the timestamps of the database, the
statement of EnqueueIncoming succeeds, and what it inserts satisfies
every constraint. -/
theorem insertIncoming_checked (hconfiguration : configuration.Admitted)
    (hdonation : donation.Admitted) (hroom : Room acceptedAt)
    (hexpiry : ∀ t, donation.occurredAt = .at t →
      InTimestamps (t + maxAlertAge))
    (userID : UserID) (source : Source) (draw : Draw) (sequence : Nat)
    (sourceEnabled : Bool) :
    ∃ inserted, insertIncoming userID source acceptedAt draw sequence
        configuration sourceEnabled donation = .ok inserted
      ∧ ∀ r ∈ inserted, r.Checked := by
  have hinserted : ∀ r : Playback, r.Checked →
      ∃ inserted, insertChecked r = .ok inserted
        ∧ ∀ r ∈ inserted, r.Checked := by
    intro r hr
    refine ⟨_, insertChecked_ok hr, fun r' hr' => ?_⟩
    cases hr'
    exact hr
  cases hoccurred : donation.occurredAt with
  | «at» t =>
      rw [insertIncoming_at hroom hoccurred (hexpiry t hoccurred)]
      split
      case isFalse => exact ⟨none, rfl, fun r hr => nomatch hr⟩
      case isTrue hyoung =>
        exact hinserted _ (incomingRow_checked hconfiguration hdonation
          (before_expiry hyoung.2) draw sequence)
  | minusInfinity =>
      unfold insertIncoming
      split
      case isFalse => exact ⟨none, rfl, fun r hr => nomatch hr⟩
      case isTrue =>
        rw [hroom.earliestIncoming_ok]
        simp only [bind, Except.bind, hoccurred]
        exact ⟨none, rfl, fun r hr => nomatch hr⟩
  | infinity =>
      unfold insertIncoming
      split
      case isFalse => exact ⟨none, rfl, fun r hr => nomatch hr⟩
      case isTrue =>
        rw [hroom.earliestIncoming_ok]
        simp only [bind, Except.bind, hoccurred]
        rw [addInterval_ok hroom.latest]
        exact hinserted _ (incomingRow_checked hconfiguration hdonation
          (before_latest acceptedAt) draw sequence)

end Row

/-- A configuration with speech, and a donation that is a millisecond and
a microsecond younger than the greatest age. -/
theorem insertIncoming_checked_youngest :
    ∃ inserted, insertIncoming 1 .streamlabs 600000499 ⟨1, 0⟩ 0
        { userID := 1, enabled := true, ttsEnabled := true } true
        { donationID := 1, source := .streamlabs, userID := 1
          author := some "  ", message := some "hello", amount := 10 ^ 18
          currency := "USD", occurredAt := .at 2000 } = .ok inserted
      ∧ ∀ r ∈ inserted, r.Checked := by
  refine insertIncoming_checked
    { accentColor := by decide, displayDuration := by decide
      soundVolume := by decide, ttsVoice := by decide
      ttsVolume := by decide }
    { amount := by decide, currency := by decide, occurredAt := ?_ }
    ⟨by decide, by decide⟩ ?_ 1 .streamlabs ⟨1, 0⟩ 0 true
  · rintro t ⟨⟩
    decide
  · rintro t ⟨⟩
    decide

/-- A donation of the last minute of the timestamps is admitted, and its
playback is not: ten minutes later there is no timestamp. -/
theorem insertIncoming_overflow :
    Configuration.Admitted { userID := 1, enabled := true }
      ∧ DonationRow.Admitted
        { donationID := 1, source := .streamlabs, userID := 1
          author := none, message := none, amount := 10 ^ 18
          currency := "USD", occurredAt := .at (endTimestamp - minute) }
      ∧ insertIncoming 1 .streamlabs 0 ⟨1, 0⟩ 0 { userID := 1, enabled := true }
        true
        { donationID := 1, source := .streamlabs, userID := 1
          author := none, message := none, amount := 10 ^ 18
          currency := "USD", occurredAt := .at (endTimestamp - minute) }
          = .error .database := by
  refine ⟨?_, ?_, by decide⟩
  · exact
      { accentColor := by decide, displayDuration := by decide
        soundVolume := by decide, ttsVoice := by decide
        ttsVolume := by decide }
  · refine { amount := by decide, currency := by decide, occurredAt := ?_ }
    rintro t ⟨⟩
    decide

-- ===================================== queue

/-- A stored donation, with its time as the column has it. -/
def Donation.row (d : Donation) : DonationRow :=
  { d with occurredAt := .at d.occurredAt }

/-- The statement inserts the row that the queue has, where it does. -/
theorem insertIncoming_queue {userID : UserID} {source : Source}
    {acceptedAt : Time} {configuration : Configuration} {donation : Donation}
    {db : Db} (hconfiguration : configuration.Admitted)
    (hdonation : donation.row.Admitted) (hroom : Room acceptedAt)
    (hexpiry : InTimestamps (donation.occurredAt + maxAlertAge))
    (draw : Draw) :
    insertIncoming userID source acceptedAt draw db.sequence configuration
        (db.alertSources.Exists fun s =>
          s.userID = userID ∧ s.source = source ∧ s.enabled) donation.row
      = .ok (if AcceptsIncoming userID source acceptedAt configuration donation
          db then
          some (incomingRow draw db.sequence acceptedAt
            (min (acceptedAt + maxAlertAge)
              (donation.occurredAt + maxAlertAge)) configuration donation.row)
        else none) := by
  have hoccurred : donation.row.occurredAt = .at donation.occurredAt := rfl
  rw [insertIncoming_at hroom hoccurred hexpiry]
  by_cases haccepts : AcceptsIncoming userID source acceptedAt configuration
      donation db
  · have hall := haccepts
    obtain ⟨huser, hsource, henabled, hexists, hyoung⟩ := hall
    rw [if_pos haccepts,
      if_pos ⟨⟨huser, hsource, henabled, decide_eq_true hexists⟩, hyoung⟩]
    exact insertChecked_ok (incomingRow_checked hconfiguration hdonation
      (before_expiry hyoung) draw db.sequence)
  · rw [if_neg haccepts, if_neg]
    rintro ⟨⟨huser, hsource, henabled, hexists⟩, hyoung⟩
    exact haccepts
      ⟨huser, hsource, henabled, of_decide_eq_true hexists, hyoung⟩

end StreamBrew.Alert
