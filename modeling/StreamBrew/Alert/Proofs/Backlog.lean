/-
How long a backlog gets.

The limit of 100 is enforced where playbacks are queued. A claimed
playback that returns to the queue is not new, and the calls that
return it do not trim: a backlog that is full while a playback is
claimed holds 101 when the playback comes back (`overfull_run`). That
is the only way over the limit (`backlog_bounded`), and one is as far
as it goes, as a user has one claimed playback at most
(`backlog_bounded_by_one_more`).
-/
import StreamBrew.Alert.Proofs.Calls

namespace StreamBrew.Alert

open Relational

variable {userID : UserID} {a : Action}

variable {g : Grant} {db db' : Db} {r r' : Playback}

/-- The number of preparing and pending playbacks of a user. -/
def Db.backlog (db : Db) (userID : UserID) : Nat :=
  db.playbacks.count (Playback.InBacklog userID)

/-- The call returns a claimed playback to a backlog that is full. -/
def Action.ReturnsToFull (db : Db) (a : Action) : Prop :=
  ∃ r ∈ db.playbacks, a.Returns db r
    ∧ maxPendingAlerts ≤ db.backlog r.userID

-- =================================== one row

/-- A playback of the user that waits or is claimed. -/
def Playback.InQueue (userID : UserID) (r : Playback) : Prop :=
  r.userID = userID
    ∧ (r.status.Waiting ∨ (r.status = .playing ∧ r.startedAt = none))

instance (userID : UserID) : DecidablePred (Playback.InQueue userID) :=
  fun _ => inferInstanceAs (Decidable (_ ∧ _))

/-- Nothing enters a queue along the diagram. -/
theorem Next.inQueue {has : UserID → AssetID → Prop}
    (h : Next has g r r') (hr' : r'.InQueue userID) :
    r.InQueue userID := by
  refine ⟨h.userID ▸ hr'.1, ?_⟩
  rcases h with h | ⟨hpending, -⟩
  · have hne : r'.stage ≠ none := by
      rcases hr'.2 with hw | hc
      · rw [Playback.stage_waiting.mpr hw]
        exact Option.some_ne_none _
      · rw [Playback.stage_claimed.mpr hc]
        exact Option.some_ne_none _
    obtain ⟨stage, hst⟩ :=
      Option.ne_none_iff_exists'.mp (h.stage.ne_none hne)
    cases stage with
    | waiting => exact Or.inl (Playback.stage_waiting.mp hst)
    | claimed => exact Or.inr (Playback.stage_claimed.mp hst)
  · exact Or.inl (Or.inr hpending)

/-- Nothing enters a backlog but what is returned to it. -/
theorem Next.inBacklog {has : UserID → AssetID → Prop}
    (h : Next has g r r') (hg : r.userID = userID → ¬ g.back r)
    (hr' : r'.InBacklog userID) : r.InBacklog userID := by
  have hu : r.userID = userID := h.userID ▸ hr'.1
  refine ⟨hu, ?_⟩
  rcases h with h | ⟨hpending, -⟩
  · rcases h.waiting hr'.2 with hw | ⟨hback, -⟩
    · exact hw
    · exact absurd hback (hg hu)
  · exact Or.inr hpending

-- ================================== one call

/-- What is in the queue after a call that queues nothing for the user
was in the queue before. -/
theorem Steps.inQueue (hi : Inv db)
    (hqueue : ¬ g.queue userID) (h : Steps g db db')
    (hr' : r' ∈ db'.playbacks) (hin : r'.InQueue userID) :
    ∃ r ∈ db.playbacks, r.InQueue userID
      ∧ r.queueSequence = r'.queueSequence := by
  induction h generalizing r' with
  | refl => exact ⟨r', hr', hin, rfl⟩
  | tail hsteps heffect ih =>
      rcases heffect.origin (hi.steps hsteps) hr' with ⟨r, hr, hn⟩ | hnew
      · obtain ⟨s, hs, hsin, hq⟩ := ih hr (hn.inQueue hin)
        exact ⟨s, hs, hsin, hq.trans hn.queueSequence.symm⟩
      · exact absurd (hin.1 ▸ hnew.granted) hqueue

/-- So it is with the backlog, when the call returns nothing either. -/
theorem Steps.inBacklog (hi : Inv db) (hqueue : ¬ g.queue userID)
    (hback : ∀ r, r.userID = userID → ¬ g.back r) (h : Steps g db db')
    (hr' : r' ∈ db'.playbacks) (hin : r'.InBacklog userID) :
    ∃ r ∈ db.playbacks, r.InBacklog userID
      ∧ r.queueSequence = r'.queueSequence := by
  induction h generalizing r' with
  | refl => exact ⟨r', hr', hin, rfl⟩
  | tail hsteps heffect ih =>
      rcases heffect.origin (hi.steps hsteps) hr' with ⟨r, hr, hn⟩ | hnew
      · obtain ⟨s, hs, hsin, hq⟩ := ih hr (hn.inBacklog (hback r) hin)
        exact ⟨s, hs, hsin, hq.trans hn.queueSequence.symm⟩
      · exact absurd (hin.1 ▸ hnew.granted) hqueue

/-- A user's queue holds one playback besides the backlog at most. -/
theorem count_inQueue_le (hi : Inv db) (userID : UserID) :
    db.playbacks.count (Playback.InQueue userID)
      ≤ db.backlog userID + 1 := by
  have hclaimed : (db.playbacks.count fun r => r.userID = userID
      ∧ r.status = .playing) ≤ 1 := by
    by_cases hex : ∃ r ∈ db.playbacks, r.userID = userID
        ∧ r.status = .playing
    · refine le_of_eq ((Table.count_eq_one ?_).mpr hex)
      intro r hr s hs hpr hps
      exact hi.single r hr s hs (hpr.1.trans hps.1.symm) hpr.2 hps.2
    · rw [Table.count_eq_zero.mpr fun r hr hp => hex ⟨r, hr, hp⟩]
      exact Nat.zero_le 1
  have hsplit : db.playbacks.count (Playback.InQueue userID)
      ≤ db.playbacks.count fun r => r.InBacklog userID
        ∨ (r.userID = userID ∧ r.status = .playing) :=
    Table.count_mono fun r _ hr => hr.2.imp (fun hw => ⟨hr.1, hw⟩)
      fun hc => ⟨hr.1, hc.1⟩
  have hor := Table.count_or_le (t := db.playbacks)
    (p := Playback.InBacklog userID)
    (q := fun r => r.userID = userID ∧ r.status = .playing)
  unfold Db.backlog
  omega

/-- The trim leaves 100. -/
theorem backlog_boundBacklog (userID : UserID) (now : Time) (db : Db) :
    (boundBacklog userID now db).backlog userID ≤ maxPendingAlerts := by
  unfold Db.backlog boundBacklog
  simp only
  rw [Table.count_update]
  refine le_trans (Table.count_mono fun r _ hr => ?_)
    (Table.count_rank_lt (p := Playback.InBacklog userID)
      (fun a ha b hb => Table.eq_of_key ha hb) maxPendingAlerts)
  split at hr
  case isTrue =>
    have hw : PlaybackStatus.expired.Waiting := hr.2
    simp [PlaybackStatus.Waiting] at hw
  case isFalse hp => exact ⟨hr, not_le.mp fun hle => hp ⟨hr, hle⟩⟩

/-- A call that queues for a user leaves the tables as they were, or
trims the user's backlog. -/
theorem queues_cases (ha : a.Queues userID) :
    apply db a = db ∨ ∃ now db₁, apply db a = boundBacklog userID now db₁ := by
  unfold Action.Queues at ha
  split at ha
  case h_1 source acceptedAt draw =>
    subst ha
    unfold apply enqueueIncoming
    simp only
    split
    case h_1 db₁ h =>
      split at h
      case h_1 => cases h; exact Or.inl rfl
      case h_2 =>
        split at h
        case h_1 => cases h; exact Or.inr ⟨_, _, rfl⟩
        case h_2 =>
          split at h
          case isFalse => cases h; exact Or.inr ⟨_, _, rfl⟩
          case isTrue =>
            split at h
            case h_1 => cases h
            case h_2 => cases h; exact Or.inr ⟨_, _, rfl⟩
    case h_2 => exact Or.inl rfl
  case h_2 now draw =>
    subst ha
    unfold apply createTest
    simp only
    split
    case h_1 => exact Or.inl rfl
    case h_2 =>
      split
      case h_1 => exact Or.inl rfl
      case h_2 => split <;> exact Or.inr ⟨_, _, rfl⟩
  case h_3 sourcePlaybackID now draw =>
    subst ha
    unfold apply replay
    simp only
    split
    case h_1 =>
      split
      case h_1 => exact Or.inl rfl
      case h_2 => split <;> exact Or.inr ⟨_, _, rfl⟩
    case h_2 => exact Or.inl rfl
  case h_4 => exact absurd ha id

/-- Off the returns to a full backlog, a call keeps to the limit. -/
theorem backlog_apply (hi : Inv db) (a : Action)
    (hle : ∀ userID, db.backlog userID ≤ maxPendingAlerts)
    (hreturn : ¬ a.ReturnsToFull db) (userID : UserID) :
    (apply db a).backlog userID ≤ maxPendingAlerts := by
  by_cases hqueue : a.Queues userID
  · rcases queues_cases hqueue with heq | ⟨now, db₁, heq⟩
    · rw [heq]
      exact hle userID
    · rw [heq]
      exact backlog_boundBacklog userID now db₁
  · have hsteps := apply_steps hi a
    by_cases hfull : maxPendingAlerts ≤ db.backlog userID
    · have hback : ∀ r, r.userID = userID → ¬ (a.grant db).back r := by
        rintro r rfl ⟨hr, hret⟩
        exact hreturn ⟨r, hr, hret, hfull⟩
      have hmono : (apply db a).backlog userID ≤ db.backlog userID :=
        Table.count_le_of_key fun r' hr' hin =>
          hsteps.inBacklog hi hqueue hback hr' hin
      exact le_trans hmono (hle userID)
    · have hmono : (apply db a).playbacks.count (Playback.InQueue userID)
          ≤ db.playbacks.count (Playback.InQueue userID) :=
        Table.count_le_of_key fun r' hr' hin =>
          hsteps.inQueue hi hqueue hr' hin
      have hin : (apply db a).backlog userID
          ≤ (apply db a).playbacks.count (Playback.InQueue userID) :=
        Table.count_mono fun r _ hr => ⟨hr.1, Or.inl hr.2⟩
      have hone := count_inQueue_le hi userID
      omega

-- ====================================== runs

/-- A run whose calls return no claimed playback to a full backlog
never goes over the limit. -/
theorem backlog_bounded (acts : List Action)
    (h : Run.Along apply (fun db a => ¬ a.ReturnsToFull db) Db.init acts) :
    ∀ before after, acts = before ++ after → ∀ userID,
      (Run.run apply Db.init before).backlog userID ≤ maxPendingAlerts := by
  intro before after he
  have hall : Inv (Run.run apply Db.init before)
      ∧ ∀ userID, (Run.run apply Db.init before).backlog userID
        ≤ maxPendingAlerts := by
    refine h.preserves (P := fun db => Inv db
      ∧ ∀ userID, db.backlog userID ≤ maxPendingAlerts) ?_ ?_ before after he
    · exact ⟨Inv.init, fun _ => Nat.zero_le _⟩
    · exact fun db a hdb hreturn => ⟨hdb.1.apply a,
        backlog_apply hdb.1 a hdb.2 hreturn⟩
  exact hall.2

/-- On every run, a backlog is one playback over the limit at most. -/
theorem backlog_bounded_by_one_more (acts : List Action)
    (userID : UserID) :
    (Run.run apply Db.init acts).backlog userID ≤ maxPendingAlerts + 1 := by
  have hqueue : Inv (Run.run apply Db.init acts)
      ∧ (Run.run apply Db.init acts).playbacks.count
        (Playback.InQueue userID) ≤ maxPendingAlerts + 1 := by
    refine Run.run_preserves (P := fun db => Inv db
      ∧ db.playbacks.count (Playback.InQueue userID)
        ≤ maxPendingAlerts + 1) ⟨Inv.init, Nat.zero_le _⟩ ?_ acts
    rintro db a ⟨hi, hle⟩
    refine ⟨hi.apply a, ?_⟩
    by_cases hqueues : a.Queues userID
    · rcases queues_cases hqueues with heq | ⟨now, db₁, heq⟩
      · rw [heq]
        exact hle
      · have hone := count_inQueue_le (hi.apply a) userID
        have htrim := backlog_boundBacklog userID now db₁
        rw [← heq] at htrim
        omega
    · refine le_trans (Table.count_le_of_key fun r' hr' hin => ?_) hle
      exact (apply_steps hi a).inQueue hi hqueues hr' hin
  refine le_trans (Table.count_mono fun r _ hr => ?_) hqueue.2
  exact ⟨hr.1, Or.inl hr.2⟩

-- ============================ over the limit

/-- The row is back in its user's backlog, and no row has left it. -/
def Returned (r : Playback) (db db' : Db) : Prop :=
  (∀ s ∈ db.playbacks, s.status.Waiting → s ∈ db'.playbacks)
    ∧ ∃ r' ∈ db'.playbacks, r'.queueSequence = r.queueSequence
      ∧ r'.InBacklog r.userID

/-- An update of playing rows that sends the row back to pending. -/
private theorem returned_of_update {p : Playback → Prop}
    [DecidablePred p] {f : Playback → Playback}
    (hp : ∀ s, p s → ¬ s.status.Waiting) (hr : r ∈ db.playbacks)
    (hpr : p r) (hq : (f r).queueSequence = r.queueSequence)
    (hu : (f r).userID = r.userID) (hs : (f r).status = .pending)
    (hmem : ∀ s', s' ∈ db'.playbacks
      ↔ ∃ s ∈ db.playbacks, (if p s then f s else s) = s') :
    Returned r db db' :=
  ⟨fun s hs hw => (hmem s).mpr ⟨s, hs, if_neg fun h => hp s h hw⟩,
    f r, (hmem _).mpr ⟨r, hr, if_pos hpr⟩, hq, hu, Or.inr hs⟩

/-- A playing row does not wait. -/
private theorem playing_not_waiting (h : r.status = .playing) :
    ¬ r.status.Waiting := by
  rw [h]
  decide

/-- Recovery sends a returnable row back. -/
theorem Playback.recover_pending {now : Time} (reason : DiagnosticCode)
    (h : r.Returnable now) : (r.recover now reason).status = .pending := by
  unfold Playback.recover
  exact if_pos ⟨h.2.1, h.2.2⟩

/-- The row a recovery is granted for is returned by it. -/
private theorem recoverAssigned_returned
    {playerID : PlayerID} {generation : Int} {now : Time}
    (hr : r ∈ db.playbacks)
    (hassigned : r.AssignedTo userID playerID generation)
    (hret : r.Returnable now)
    (he : db'.playbacks = (recoverAssignedPlayback userID playerID
      generation now .playerDisconnected db).playbacks) :
    Returned r db db' := by
  refine returned_of_update (p := fun s =>
      s.AssignedTo userID playerID generation ∧ s.status = .playing)
    (fun s hs => playing_not_waiting hs.2) hr ⟨hassigned, hret.1⟩ rfl rfl
    (Playback.recover_pending .playerDisconnected hret) fun s' => ?_
  rw [he]
  unfold recoverAssignedPlayback
  rw [Table.mem_update]

/-- A call returns exactly the rows that `Action.Returns` names. -/
theorem returned_of_returns (hr : r ∈ db.playbacks)
    (h : a.Returns db r) : Returned r db (apply db a) := by
  cases a with
  | openPlayer tokenHash candidateID now =>
      obtain ⟨hret, overlay, current, ho, hc, hover, hassigned⟩ := h
      refine recoverAssigned_returned hr hassigned hret ?_
      show (openPlayer tokenHash candidateID now db).2.playbacks = _
      unfold openPlayer
      simp only [ho, hc, gt_iff_lt, not_lt.mpr hover, if_false]
      rfl
  | heartbeat tokenHash playerID generation active visible now =>
      obtain ⟨hwhy, hret, player, hplayer, hassigned⟩ := h
      refine recoverAssigned_returned hr hassigned hret ?_
      show (heartbeat tokenHash playerID generation active visible now
        db).2.playbacks = _
      unfold heartbeat
      rw [hplayer]
      simp only
      split
      case isTrue => rfl
      case isFalse hlease =>
        have hidle : (!active || !visible) = true := by
          rcases hwhy with ⟨p, hp, hover⟩ | rfl | rfl
          · rw [hp] at hplayer
            cases hplayer
            exact absurd (not_lt.mpr hover) hlease
          · rfl
          · simp
        rw [if_pos hidle]
        rfl
  | releasePlayer tokenHash playerID generation now =>
      obtain ⟨hret, player, hplayer, hassigned⟩ := h
      refine recoverAssigned_returned hr hassigned hret ?_
      show (releasePlayer tokenHash playerID generation now
        db).2.playbacks = _
      unfold releasePlayer
      rw [hplayer]
      rfl
  | setOverlayTokenHash userID tokenHash now =>
      obtain ⟨hfree, hu, hret⟩ := h
      refine returned_of_update (p := fun s => s.userID = userID
          ∧ s.status = .playing) (fun s hs => playing_not_waiting hs.2) hr
        ⟨hu, hret.1⟩ rfl rfl
        (Playback.recover_pending .overlayRotated hret) fun s' => ?_
      show s' ∈ (setOverlayTokenHash userID tokenHash now db).2.playbacks
        ↔ _
      unfold setOverlayTokenHash
      simp only
      split
      case isTrue htaken => exact absurd htaken hfree
      case isFalse =>
        unfold recoverUserPlayback
        rw [Table.mem_update]
        rfl
  | streamState tokenHash playerID generation now =>
      obtain ⟨⟨p, c, hp, hc, hover⟩, hret, player, hplayer, hassigned⟩ := h
      rw [hp] at hplayer
      cases hplayer
      refine recoverAssigned_returned hr hassigned hret ?_
      show (streamState tokenHash playerID generation now
        db).2.playbacks = _
      unfold streamState
      simp only [hp, hc, gt_iff_lt, not_lt.mpr hover, not_false_eq_true,
        if_true]
  | claimPlayback tokenHash playerID generation now locked =>
      obtain ⟨⟨p, c, hp, hc, hover⟩, hret, player, hplayer, hassigned⟩ := h
      rw [hp] at hplayer
      cases hplayer
      refine recoverAssigned_returned hr hassigned hret ?_
      show (claimPlayback tokenHash playerID generation now locked
        db).2.playbacks = _
      unfold claimPlayback
      simp only [hp, hc, gt_iff_lt, not_lt.mpr hover, not_false_eq_true,
        if_true]
  | finishPlayback tokenHash playerID generation playbackID outcome now =>
      cases outcome with
      | completed => exact absurd h id
      | interrupted =>
          obtain ⟨hheld, hret⟩ := h
          refine returned_of_update (p := fun s => s.HeldBy tokenHash
              playerID generation playbackID now db
              ∧ (s.status = .playing ∨ s.status = .interrupted))
            (f := Playback.interrupt now) (fun s hs => ?_) hr
            ⟨hheld, Or.inl hret.1⟩ rfl rfl
            (if_pos ⟨hret.2.1, hret.2.2⟩) fun s' => ?_
          · rcases hs.2 with hs | hs <;> rw [hs] <;> decide
          · show s' ∈ (finishPlayback tokenHash playerID generation
              playbackID .interrupted now db).2.playbacks ↔ _
            unfold finishPlayback
            simp only
            rw [acknowledge_snd, Table.mem_update]
  | _ => exact absurd h id

/-- A row that is returned adds one to its user's backlog. -/
theorem backlog_returned (hplay : r.status = .playing)
    (h : Returned r db db') (hr : r ∈ db.playbacks) :
    db.backlog r.userID < db'.backlog r.userID := by
  obtain ⟨hwait, r', hr', hq, hin⟩ := h
  have hmore : db.backlog r.userID
      < db.playbacks.count fun s => s.InBacklog r.userID
        ∨ s.queueSequence = r.queueSequence :=
    Table.count_lt_of_mem (fun s _ hs => Or.inl hs) hr (Or.inr rfl)
      fun hs => playing_not_waiting hplay hs.2
  refine lt_of_lt_of_le hmore (Table.count_le_of_key fun s hs hin' => ?_)
  rcases hin' with hin' | hsq
  · exact ⟨s, hwait s hs hin'.2, hin', rfl⟩
  · exact ⟨r', hr', hin, hq.trans hsq.symm⟩

/-- A call returns only what was claimed and not started. -/
theorem playing_of_returns (h : a.Returns db r) :
    r.status = .playing := by
  cases a with
  | openPlayer => exact h.1.1
  | heartbeat => exact h.2.1.1
  | releasePlayer => exact h.1.1
  | setOverlayTokenHash => exact h.2.2.1
  | streamState => exact h.2.1.1
  | claimPlayback => exact h.2.1.1
  | finishPlayback _ _ _ _ outcome _ =>
      cases outcome with
      | completed => exact absurd h id
      | interrupted => exact h.2.1
  | _ => exact absurd h id

/-- A call that returns a playback to a full backlog breaks the limit. -/
theorem overfull_of_returnsToFull (h : a.ReturnsToFull db) :
    ∃ userID, maxPendingAlerts < (apply db a).backlog userID := by
  obtain ⟨r, hr, hret, hfull⟩ := h
  exact ⟨r.userID, lt_of_le_of_lt hfull
    (backlog_returned (playing_of_returns hret) (returned_of_returns hr hret)
      hr)⟩

-- ----------------------------------------------------- such a run

/-- A backlog within the limit is not trimmed. -/
theorem boundBacklog_eq_self {now : Time}
    (h : db.backlog userID ≤ maxPendingAlerts) :
    boundBacklog userID now db = db := by
  have hsame : db.playbacks.update
      (fun r => r.InBacklog userID ∧ maxPendingAlerts
        ≤ db.playbacks.rank (Playback.InBacklog userID)
          Playback.queueSequence r)
      (Playback.expire now .backlogLimit) (Table.keeps rfl)
      = db.playbacks := by
    refine Table.update_eq_self fun r hr hp => ?_
    have hlt : db.playbacks.rank (Playback.InBacklog userID)
        Playback.queueSequence r < db.backlog userID :=
      Table.count_lt_of_mem (fun s _ hs => hs.1) hr hp.1
        fun hs => lt_irrefl _ hs.2
    have hle := hp.2
    omega
  unfold boundBacklog
  rw [hsame]

/-- Where the configuration is there, ensuring it keeps everything but
the list of sources. -/
theorem ensureConfiguration_configurations
    {c : Configuration} (hc : db.configurations.get? userID = some c) :
    (ensureConfiguration userID db).configurations = db.configurations := by
  obtain ⟨hmem, hu⟩ := Table.get?_eq_some.mp hc
  exact Table.insertOrIgnore_eq_self hmem hu

/-- A test alert into a backlog with room adds one playback and
changes nothing else that matters here. -/
theorem createTest_adds (hi : Inv db)
    {c : Configuration} (hc : db.configurations.get? userID = some c)
    (now : Time) {draw : Draw}
    (hid : ∀ r ∈ db.playbacks, r.playbackID ≠ draw.playbackID)
    (hroom : db.backlog userID < maxPendingAlerts) :
    ∃ row : Playback, row.playbackID = draw.playbackID
      ∧ (∀ r, r ∈ (apply db (.createTest userID now draw)).playbacks
        ↔ r ∈ db.playbacks ∨ r = row)
      ∧ (apply db (.createTest userID now draw)).backlog userID
        = db.backlog userID + 1
      ∧ (apply db (.createTest userID now draw)).players = db.players
      ∧ (apply db (.createTest userID now draw)).overlays = db.overlays
      ∧ (apply db (.createTest userID now draw)).configurations
        = db.configurations := by
  have hconf := ensureConfiguration_configurations hc
  set ensured := ensureConfiguration userID db with hens
  have hrows : ensured.playbacks = db.playbacks := rfl
  set snapshot := c.present .test none none (some "StreamBrew")
    (some "This is a test donation alert.") (500 * 10 ^ 18) "RUB" now
    (now + maxAlertAge) with hsnap
  set status : PlaybackStatus :=
    if c.ttsEnabled then .preparing else .pending with hstatus
  set row := draw.playback db.sequence userID snapshot status with hrow
  obtain ⟨playbacks, hins⟩ : ∃ t, db.playbacks.insert? row = some t := by
    refine Table.insert?_isSome fun r hr he => ?_
    have hle := hi.bound r hr
    have hseq : r.queueSequence = db.sequence + 1 + draw.gap := he
    omega
  set inserted : Db :=
    { ensured with playbacks, sequence := row.queueSequence } with hinserted
  have hinsert : ensured.insertPlayback draw userID snapshot status
      = some inserted := by
    unfold Db.insertPlayback
    simp only
    rw [if_neg fun ⟨r, hr, he⟩ => hid r hr he]
    show (db.playbacks.insert? row).map _ = _
    rw [hins]
    rfl
  have hcount : inserted.backlog userID = db.backlog userID + 1 := by
    have hin : row.InBacklog userID := by
      refine ⟨rfl, ?_⟩
      show status.Waiting
      rw [hstatus]
      split
      · exact Or.inl rfl
      · exact Or.inr rfl
    show playbacks.count _ = _
    rw [Table.count_insert? hins, if_pos hin]
    rfl
  have happly : apply db (.createTest userID now draw) = inserted := by
    show (createTest userID now draw db).2 = inserted
    unfold createTest
    simp only
    rw [← hens, hconf, hc]
    simp only
    rw [← hsnap, ← hstatus, hinsert]
    simp only
    rw [boundBacklog_eq_self (by omega)]
    split <;> rfl
  rw [happly]
  exact ⟨row, rfl, fun r => Table.mem_insert? hins, hcount, rfl, rfl, hconf⟩

/-- A widget opens and claims the first of a user's alerts. -/
def claimingRun : List Action :=
  [.setOverlayTokenHash 1 "overlay" 0, .openPlayer "overlay" 5 0,
    .heartbeat "overlay" 5 1 true true 0,
    .createTest 1 0 { playbackID := 0, gap := 0 },
    .claimPlayback "overlay" 5 1 0 []]

/-- The next alerts that are queued meanwhile. -/
def queueingRun (n : Nat) : List Action :=
  (List.range n).map fun i =>
    .createTest 1 0 { playbackID := i + 1, gap := 0 }

/-- The widget closes before it starts the playback. -/
def overfullRun : List Action :=
  claimingRun ++ queueingRun maxPendingAlerts
    ++ [.releasePlayer "overlay" 5 1 0]

/-- A state with `k` waiting playbacks besides the claimed one. -/
structure Loaded (k : Nat) (db : Db) : Prop where
  inv : Inv db
  backlog : db.backlog 1 = k
  ids : ∀ r ∈ db.playbacks, r.playbackID ≤ k
  configured : ∃ c, db.configurations.get? 1 = some c
  claimed : ∃ r ∈ db.playbacks, r.Surrendered "overlay" 5 1 0 db
    ∧ r.userID = 1

theorem loaded_claimingRun : Loaded 0 (Run.run apply Db.init claimingRun) := by
  constructor
  case inv => exact Reachable.inv ⟨claimingRun, rfl⟩
  case backlog => decide
  case ids =>
    show ∀ r ∈ (Run.run apply Db.init claimingRun).playbacks.rows, _
    decide
  case configured => exact Option.ne_none_iff_exists'.mp (by decide)
  case claimed =>
    obtain ⟨r, hr, hret, hassigned, hu⟩ :
        ∃ r ∈ (Run.run apply Db.init claimingRun).playbacks.rows,
          r.Returnable 0 ∧ r.AssignedTo 1 5 1 ∧ r.userID = 1 := by
      decide
    obtain ⟨player, hplayer, hp⟩ := Option.map_eq_some_iff.mp
      (show ((Run.run apply Db.init claimingRun).player? "overlay" 5
        1).map Player.userID = some 1 by decide)
    exact ⟨r, hr, ⟨hret, player, hplayer, hp ▸ hassigned⟩, hu⟩

/-- Each test alert of the run adds one to the backlog. -/
theorem Loaded.createTest {k : Nat} (h : Loaded k db)
    (hk : k < maxPendingAlerts) :
    Loaded (k + 1) (apply db
      (.createTest 1 0 { playbackID := k + 1, gap := 0 })) := by
  obtain ⟨c, hc⟩ := h.configured
  have hid : ∀ r ∈ db.playbacks,
      r.playbackID ≠ Draw.playbackID ⟨k + 1, 0⟩ := by
    intro r hr he
    have hle := h.ids r hr
    rw [he] at hle
    exact absurd hle (Nat.not_succ_le_self k)
  obtain ⟨row, hrow, hmem, hcount, hplayers, hoverlays, hconf⟩ :=
    createTest_adds h.inv hc 0 hid (h.backlog ▸ hk)
  constructor
  case inv => exact h.inv.apply _
  case backlog => rw [hcount, h.backlog]
  case ids =>
    intro r hr
    rcases (hmem r).mp hr with hr | rfl
    · exact le_trans (h.ids r hr) (Nat.le_succ k)
    · exact hrow.le
  case configured => exact ⟨c, hconf ▸ hc⟩
  case claimed =>
    obtain ⟨r, hr, ⟨hret, player, hplayer, hassigned⟩, hu⟩ := h.claimed
    refine ⟨r, (hmem r).mpr (Or.inl hr), ⟨hret, player, ?_, hassigned⟩, hu⟩
    unfold Db.player? at hplayer ⊢
    rw [hplayers, hoverlays]
    exact hplayer

theorem loaded_queueingRun {n : Nat} (hn : n ≤ maxPendingAlerts) :
    Loaded n (Run.run apply Db.init (claimingRun ++ queueingRun n)) := by
  induction n with
  | zero => exact loaded_claimingRun
  | succ n ih =>
      have hsnoc : queueingRun (n + 1) = queueingRun n
          ++ [.createTest 1 0 { playbackID := n + 1, gap := 0 }] := by
        unfold queueingRun
        rw [List.range_succ, List.map_append]
        rfl
      rw [hsnoc, ← List.append_assoc, Run.run_append, Run.run_cons,
        Run.run_nil]
      exact (ih (by omega)).createTest hn

theorem Loaded.releasePlayer {k : Nat} (h : Loaded k db) :
    k < (apply db (.releasePlayer "overlay" 5 1 0)).backlog 1 := by
  obtain ⟨r, hr, hsurrendered, hu⟩ := h.claimed
  have hreturned : Returned r db
      (apply db (.releasePlayer "overlay" 5 1 0)) :=
    returned_of_returns hr hsurrendered
  have hmore := backlog_returned hsurrendered.1.1 hreturned hr
  rwa [hu, h.backlog] at hmore

/-- The playback that the closing widget returns is the 101st. -/
theorem overfull_run :
    maxPendingAlerts < (Run.run apply Db.init overfullRun).backlog 1 := by
  unfold overfullRun
  rw [Run.run_append, Run.run_cons, Run.run_nil]
  exact (loaded_queueingRun (Nat.le_refl maxPendingAlerts)).releasePlayer

/-- A call in a state where every backlog has room. -/
theorem not_returnsToFull
    (h : ∀ r ∈ db.playbacks.rows, db.backlog r.userID < maxPendingAlerts) :
    ¬ a.ReturnsToFull db := by
  rintro ⟨r, hr, -, hfull⟩
  exact absurd (h r hr) (not_lt.mpr hfull)

/-- The widget closes while the backlog has room. -/
def closingRun : List Action :=
  claimingRun ++ [.releasePlayer "overlay" 5 1 0]

/-- What it returns then stays within the limit. -/
theorem backlog_bounded_closingRun :
    (Run.run apply Db.init closingRun).backlog 1 ≤ maxPendingAlerts := by
  have halong : Run.Along apply (fun db a => ¬ a.ReturnsToFull db) Db.init
      closingRun := by
    unfold closingRun claimingRun
    simp only [List.cons_append, List.nil_append, Run.Along, and_true]
    refine ⟨?_, ?_, ?_, ?_, ?_, ?_⟩
    all_goals
      refine not_returnsToFull ?_
      decide
  exact backlog_bounded closingRun halong closingRun []
    (List.append_nil closingRun).symm 1

end StreamBrew.Alert
