/-
What stays: the snapshot of an active playback, the media it and the
configuration name, and the newest part of the history.

Three calls may write to history, and they write to nothing else: an
active row passes them unchanged. Every other call follows the diagram
without the grants to release and to retire, and along it no arrow
writes a column of the snapshot. Speech is written where it is
attached and nowhere else.
-/
import StreamBrew.Alert.Proofs.Calls

namespace StreamBrew.Alert

open Relational

variable {g : Grant} {db db' : Db} {r r' : Playback}

/-- Preparing, pending or playing. -/
def Playback.Active (r : Playback) : Prop :=
  r.status = .preparing ∨ r.status = .pending ∨ r.status = .playing

/-- An active row is not over. -/
theorem Playback.Active.not_terminal (h : r.Active) :
    ¬ r.status.Terminal := by
  rcases h with h | h | h <;> rw [h] <;> decide

-- ============================== the snapshot

/-- Without the grants, a row keeps its snapshot and its speech. -/
theorem Next.presentation {has : UserID → AssetID → Prop}
    (h : Next has g r r') (hrelease : ¬ g.release r) (hspeak : ¬ g.speak r) :
    r'.toSnapshot = r.toSnapshot ∧ r'.ttsAssetID = r.ttsAssetID := by
  rcases h with h | ⟨-, p, n, rfl⟩
  · cases h with
    | attachSpeech hs => exact absurd hs hspeak
    | releaseMedia hs => exact absurd hs hrelease
    | _ => exact ⟨rfl, rfl⟩
  · exact ⟨rfl, rfl⟩

/-- Deleting a file passes active rows by. -/
theorem deleteAsset_active (userID : UserID) (assetID : AssetID)
    (hr : r ∈ db.playbacks) (hactive : r.Active) :
    r ∈ (deleteAsset userID assetID db).2.playbacks := by
  unfold deleteAsset
  simp only
  split
  case isFalse => exact hr
  case isTrue =>
    rw [Table.mem_update]
    exact ⟨r, hr, if_neg fun h => hactive.not_terminal h.2.1⟩

/-- Releasing media of the history passes active rows by. -/
theorem releaseHistoryMedia_active (hr : r ∈ db.playbacks)
    (hactive : r.Active) : r ∈ (releaseHistoryMedia db).playbacks := by
  unfold releaseHistoryMedia
  rw [Table.mem_update]
  exact ⟨r, hr, if_neg fun h => hactive.not_terminal h.1⟩

/-- Deleting history passes active rows by. -/
theorem pruneHistory_active (now : Time) (hr : r ∈ db.playbacks)
    (hactive : r.Active) : r ∈ (pruneHistory now db).playbacks :=
  Table.mem_delete.mpr ⟨hr, fun h => hactive.not_terminal h.1⟩

/-- A completed preparation writes speech to the row it is about. -/
theorem completePreparation_kept (hi : Inv db) (preparation : Preparation)
    (media : Media) (assetID : AssetID) (now : Time)
    (hr : r ∈ db.playbacks) :
    ∃ r' ∈ (completePreparation preparation media assetID now
        db).2.playbacks,
      r'.queueSequence = r.queueSequence ∧ r'.toSnapshot = r.toSnapshot
        ∧ (r'.ttsAssetID = r.ttsAssetID
          ∨ (r.status = .preparing ∧ r'.status = .pending)) := by
  have hstay : r.queueSequence = r.queueSequence
      ∧ r.toSnapshot = r.toSnapshot
      ∧ (r.ttsAssetID = r.ttsAssetID
        ∨ (r.status = .preparing ∧ r.status = .pending)) :=
    ⟨rfl, rfl, Or.inl rfl⟩
  unfold completePreparation
  split
  case h_1 => exact ⟨r, hr, hstay⟩
  case h_2 speech inserted hins =>
    obtain ⟨-, -, hrows, -⟩ := effect_insertAsset (g := {}) hi hins
    split
    case isFalse => exact ⟨r, hr, hstay⟩
    case isTrue =>
      rw [← hrows] at hr
      by_cases hp : r.PreparedBy preparation
      · refine ⟨r.attachSpeech speech, ?_, rfl, rfl,
          Or.inr ⟨hp.2.2.2, rfl⟩⟩
        rw [Table.mem_update]
        exact ⟨r, hr, if_pos hp⟩
      · refine ⟨r, ?_, hstay⟩
        rw [Table.mem_update]
        exact ⟨r, hr, if_neg hp⟩

/-- No call takes an active row away or writes to its snapshot, and
only the step from preparing to pending changes its speech. -/
theorem active_kept (hi : Inv db) (a : Action) (hr : r ∈ db.playbacks)
    (hactive : r.Active) :
    ∃ r' ∈ (apply db a).playbacks,
      r'.queueSequence = r.queueSequence ∧ r'.toSnapshot = r.toSnapshot
        ∧ (r'.ttsAssetID = r.ttsAssetID
          ∨ (r.status = .preparing ∧ r'.status = .pending)) := by
  by_cases hspecial : (∃ preparation media assetID now,
      a = .completePreparation preparation media assetID now)
    ∨ (∃ userID assetID, a = .deleteAsset userID assetID)
    ∨ a = .releaseHistoryMedia ∨ ∃ now, a = .pruneHistory now
  · rcases hspecial with ⟨preparation, media, assetID, now, rfl⟩
      | ⟨userID, assetID, rfl⟩ | rfl | ⟨now, rfl⟩
    · exact completePreparation_kept hi preparation media assetID now hr
    · exact ⟨r, deleteAsset_active userID assetID hr hactive, rfl, rfl,
        Or.inl rfl⟩
    · exact ⟨r, releaseHistoryMedia_active hr hactive, rfl, rfl,
        Or.inl rfl⟩
    · exact ⟨r, pruneHistory_active now hr hactive, rfl, rfl, Or.inl rfl⟩
  · obtain ⟨hspeak, hdelete, hrelease, hprune⟩ :
        (∀ s, ¬ (a.grant db).speak s)
          ∧ (¬ ∃ userID assetID, a = .deleteAsset userID assetID)
          ∧ a ≠ .releaseHistoryMedia ∧ ¬ ∃ now, a = .pruneHistory now := by
      refine ⟨fun s ⟨preparation, media, assetID, now, ha, _⟩ => ?_,
        fun h => hspecial (Or.inr (Or.inl h)),
        fun h => hspecial (Or.inr (Or.inr (Or.inl h))),
        fun h => hspecial (Or.inr (Or.inr (Or.inr h)))⟩
      exact hspecial (Or.inl ⟨preparation, media, assetID, now, ha⟩)
    have hretire : ∀ s, ¬ (a.grant db).retire s := by
      rintro s ⟨now, ha, -⟩
      exact hprune ⟨now, ha⟩
    have hnext : ∀ has s s', (s.toSnapshot = r.toSnapshot
        ∧ s.ttsAssetID = r.ttsAssetID) → Next has (a.grant db) s s' →
        s'.toSnapshot = r.toSnapshot ∧ s'.ttsAssetID = r.ttsAssetID := by
      rintro has s s' ⟨hsnap, htts⟩ hn
      obtain ⟨hsnap', htts'⟩ := hn.presentation
        (fun hs => hs.elim hdelete hrelease) (hspeak s)
      exact ⟨hsnap'.trans hsnap, htts'.trans htts⟩
    obtain ⟨r', hr', hq, hsnap, htts⟩ :=
      (apply_steps hi a).kept hi hretire hnext hr ⟨rfl, rfl⟩
    exact ⟨r', hr', hq, hsnap, Or.inl htts⟩

-- ================================= the sweep

/-- A row after the sweep is a row of the history that the sweep
spared, or was not over; its media references may be gone. -/
theorem pruneRetention_origin {now : Time}
    (hr' : r' ∈ (pruneRetention now db).playbacks) :
    ∃ r ∈ db.playbacks, ¬ r.Retired now db
      ∧ r'.queueSequence = r.queueSequence ∧ r'.userID = r.userID
      ∧ r'.status = r.status ∧ r'.terminalAt = r.terminalAt := by
  have hmem : r' ∈ (releaseHistoryMedia (pruneHistory now db)).playbacks :=
    hr'
  unfold releaseHistoryMedia at hmem
  rw [Table.mem_update] at hmem
  obtain ⟨r, hr, he⟩ := hmem
  obtain ⟨hr, hnot⟩ := Table.mem_delete.mp hr
  refine ⟨r, hr, hnot, ?_⟩
  split at he <;> subst he <;> exact ⟨rfl, rfl, rfl, rfl⟩

/-- A sweep keeps the last thirty days of the newest twenty. -/
theorem pruneRetention_history {now : Time}
    (hr' : r' ∈ (pruneRetention now db).playbacks)
    (hover : r'.status.Terminal) :
    now - terminalPlaybackRetention ≤ r'.terminalAt
      ∧ db.playbacks.rank (Playback.InHistory r'.userID)
        Playback.queueSequence r' < maxRetainedTerminalPlaybacks := by
  obtain ⟨r, hr, hnot, hq, hu, hs, ht⟩ := pruneRetention_origin hr'
  have hlive := not_or.mp fun h => hnot ⟨hs ▸ hover, h⟩
  have hrank : db.playbacks.rank (Playback.InHistory r'.userID)
      Playback.queueSequence r'
      = db.playbacks.rank (Playback.InHistory r.userID)
        Playback.queueSequence r := by
    unfold Table.rank
    rw [hq, hu]
  refine ⟨ht ▸ not_lt.mp hlive.1, ?_⟩
  rw [hrank]
  have hle := not_lt.mp hlive.2
  omega

/-- A sweep leaves no user more than twenty playbacks of history. -/
theorem pruneRetention_count (now : Time) (userID : UserID) :
    (pruneRetention now db).playbacks.count (Playback.InHistory userID)
      ≤ maxRetainedTerminalPlaybacks := by
  have hswept : (pruneRetention now db).playbacks.count
      (Playback.InHistory userID)
      = (pruneHistory now db).playbacks.count
        (Playback.InHistory userID) := by
    show (releaseHistoryMedia (pruneHistory now db)).playbacks.count _ = _
    unfold releaseHistoryMedia
    rw [Table.count_update]
    refine Table.count_congr fun r _ => ?_
    split <;> rfl
  have hspared : (pruneHistory now db).playbacks.count
      (Playback.InHistory userID)
      ≤ db.playbacks.count fun r => r.InHistory userID
        ∧ db.playbacks.rank (Playback.InHistory userID)
          Playback.queueSequence r < maxRetainedTerminalPlaybacks := by
    unfold pruneHistory
    rw [Table.count_delete]
    refine Table.count_mono fun r _ ⟨hin, hnot⟩ => ⟨hin, ?_⟩
    have hlive := (not_or.mp fun h => hnot ⟨hin.2, h⟩).2
    rw [hin.1] at hlive
    omega
  rw [hswept]
  exact le_trans hspared
    (Table.count_rank_lt (fun a ha b hb => Table.eq_of_key ha hb) _)

-- ====================================== runs

/-- Snapshot and media retention on every run. No call takes an active
playback away or writes to its snapshot, and its speech changes only on
the step from preparing to pending. The files that an active playback
or a configuration names exist and belong to its user. A sweep deletes
only what is over, and afterwards a user's history is within thirty
days and among the newest twenty. -/
theorem snapshots_and_media_retained (acts : List Action) :
    let db := Run.run apply Db.init acts
    (∀ a, ∀ r ∈ db.playbacks, r.Active →
        ∃ r' ∈ (apply db a).playbacks,
          r'.queueSequence = r.queueSequence
            ∧ r'.toSnapshot = r.toSnapshot
            ∧ (r'.ttsAssetID = r.ttsAssetID
              ∨ (r.status = .preparing ∧ r'.status = .pending)))
      ∧ (∀ r ∈ db.playbacks, r.Active → ∀ a, r.References a →
        ∃ asset ∈ db.assets, asset.assetID = a ∧ asset.userID = r.userID)
      ∧ (∀ c ∈ db.configurations, ∀ a,
        c.imageAssetID = some a ∨ c.soundAssetID = some a →
        ∃ asset ∈ db.assets, asset.assetID = a ∧ asset.userID = c.userID)
      ∧ ∀ now,
        (∀ r ∈ db.playbacks, r.Active →
            r ∈ (pruneRetention now db).playbacks)
          ∧ (∀ r' ∈ (pruneRetention now db).playbacks,
            r'.status.Terminal →
            now - terminalPlaybackRetention ≤ r'.terminalAt
              ∧ db.playbacks.rank (Playback.InHistory r'.userID)
                Playback.queueSequence r' < maxRetainedTerminalPlaybacks)
          ∧ ∀ userID, (pruneRetention now db).playbacks.count
            (Playback.InHistory userID) ≤ maxRetainedTerminalPlaybacks := by
  intro db
  have hi : Inv db := Reachable.inv ⟨acts, rfl⟩
  refine ⟨fun a r hr hactive => active_kept hi a hr hactive,
    fun r hr _ a ha => hi.references r hr a ha,
    fun c hc a ha => hi.selected c hc a ha, fun now => ⟨?_, ?_, ?_⟩⟩
  · intro r hr hactive
    exact releaseHistoryMedia_active
      (pruneHistory_active now hr hactive) hactive
  · exact fun r' hr' hover => pruneRetention_history hr' hover
  · exact fun userID => pruneRetention_count now userID

end StreamBrew.Alert
