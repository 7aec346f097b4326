/-
The statements of the store calls as effects: which rows each of them
meets, and the arrow it takes them along.

A statement that needs nothing is an effect in any state and for any
grant. The statements that take a playback from its player also settle
that player's account: afterwards none of its playbacks plays, so its
row may go (`effect_deletePlayer`, `effect_connectPlayer`).
-/
import StreamBrew.Alert.Proofs.Effect

namespace StreamBrew.Alert

open Relational

variable {userID : UserID} {now : Time} {reason : DiagnosticCode}

variable {g : Grant} {db : Db}

-- ============================= configuration

/-- A default configuration selects nothing. -/
theorem effect_ensureConfiguration (hi : Inv db) (userID : UserID) :
    Effect g db (ensureConfiguration userID db) := by
  refine .media _ _ _ (fun _ _ _ _ h => h) fun c hc a ha => ?_
  rcases Table.mem_insertOrIgnore.mp hc with hc | ⟨rfl, -⟩
  · exact hi.selected c hc a ha
  · rcases ha with ha | ha <;> cases ha

/-- A configuration update that selects only files of the user. -/
theorem effect_configure (hi : Inv db) {p : Configuration → Prop}
    [DecidablePred p] {f : Configuration → Configuration}
    {hf : ∀ c, (f c).userID = c.userID} {alertSources}
    (h : ∀ c ∈ db.configurations, p c → ∀ a, (f c).Selects a →
      c.Selects a ∨ db.Has c.userID a) :
    Effect g db { db with
      configurations := db.configurations.update p f hf, alertSources } := by
  refine .media _ _ _ (fun _ _ _ _ h => h) fun c' hc' a ha => ?_
  rw [Table.mem_update] at hc'
  obtain ⟨c, hc, he⟩ := hc'
  split at he
  case isTrue hp =>
    subst he
    rw [hf]
    exact (h c hc hp a ha).elim (hi.selected c hc a) id
  case isFalse =>
    subst he
    exact hi.selected c hc a ha

/-- Storing a file loses none. -/
theorem effect_insertAsset {kind : AssetKind}
    {media : Media} {assetID saved : AssetID} {db' : Db} (hi : Inv db)
    (h : db.insertAsset userID kind media assetID now = some (saved, db')) :
    Effect g db db' ∧ db'.Has userID saved
      ∧ db'.playbacks = db.playbacks
      ∧ db'.configurations = db.configurations := by
  unfold Db.insertAsset at h
  split at h
  case h_1 asset hfound =>
    injection h with h
    injection h with hsaved hdb
    subst hdb hsaved
    obtain ⟨hmem, huser, -⟩ := Table.find?_eq_some hfound
    exact ⟨.media _ _ _ (fun _ _ _ _ h => h) hi.selected,
      ⟨asset, hmem, rfl, huser⟩, rfl, rfl⟩
  case h_2 =>
    obtain ⟨assets, hins, he⟩ := Option.map_eq_some_iff.mp h
    injection he with hsaved hdb
    subst hdb hsaved
    have hgrow : ∀ u a, db.Has u a → { db with assets }.Has u a := by
      rintro u a ⟨asset, hasset, ha⟩
      exact ⟨asset, (Table.mem_insert? hins).mpr (Or.inl hasset), ha⟩
    refine ⟨.media _ _ _ (fun r _ a _ => hgrow r.userID a)
        fun c hc a ha => hgrow c.userID a (hi.selected c hc a ha), ?_,
      rfl, rfl⟩
    exact ⟨_, (Table.mem_insert? hins).mpr (Or.inr rfl), rfl, rfl⟩

-- =================================== backlog

theorem effect_boundBacklog (userID : UserID) (now : Time) :
    Effect g db (boundBacklog userID now db) :=
  .move fun _ _ hp => .expire hp.1.2 now _

theorem effect_expireBacklog (userID : UserID) (now : Time) :
    Effect g db (expireBacklog userID now db) :=
  .move fun _ _ hp => .expire hp.1.2 now _

theorem effect_expireAll (now : Time) : Effect g db (expireAll now db) :=
  .move fun _ _ hp => .expire hp.1 now _

theorem effect_releaseExhausted (now : Time) :
    Effect g db (releaseExhausted now db) :=
  .move fun _ _ hp => .abandonSpeech hp.1

-- ================================== recovery

theorem effect_recoverAssignedPlayback
    {playerID : PlayerID} {generation : Int}
    (hg : ∀ r ∈ db.playbacks, r.AssignedTo userID playerID generation →
      r.Returnable now → g.back r) :
    Effect g db
      (recoverAssignedPlayback userID playerID generation now reason db) :=
  .move fun r hr hp => r.move_recover now reason hp.2 (hg r hr hp.1)

theorem effect_recoverUserPlayback
    (hg : ∀ r ∈ db.playbacks, r.userID = userID → r.Returnable now →
      g.back r) :
    Effect g db (recoverUserPlayback userID now reason db) :=
  .move fun r hr hp => r.move_recover now reason hp.2 (hg r hr hp.1)

theorem effect_recoverTimedOutPlayback (userID : UserID) (now : Time) :
    Effect g db (recoverTimedOutPlayback userID now db) :=
  .move fun r _ hp => r.move_timeOut now hp.2.1

/-- A recovered playback does not play. -/
theorem Playback.recover_status (r : Playback) (now : Time)
    (reason : DiagnosticCode) : (r.recover now reason).status ≠ .playing := by
  unfold Playback.recover
  by_cases hstart : r.startedAt = none
  · by_cases hfresh : r.expiresAt > now <;> simp [hstart, hfresh]
  · simp [hstart]

/-- After recovery nothing plays for that player. -/
theorem recoverAssignedPlayback_idle {playerID : PlayerID} {generation : Int}
    :
    ∀ r ∈ (recoverAssignedPlayback userID playerID generation now reason
      db).playbacks, r.AssignedTo userID playerID generation →
      r.status ≠ .playing := by
  intro r hr hassigned hplay
  unfold recoverAssignedPlayback at hr
  rw [Table.mem_update] at hr
  obtain ⟨s, hs, he⟩ := hr
  split at he
  case isTrue =>
    subst he
    exact s.recover_status now reason hplay
  case isFalse hnot =>
    subst he
    exact hnot ⟨hassigned, hplay⟩

/-- After recovery nothing plays for that user. -/
theorem recoverUserPlayback_idle
    :
    ∀ r ∈ (recoverUserPlayback userID now reason db).playbacks,
      r.userID = userID → r.status ≠ .playing := by
  intro r hr huser hplay
  unfold recoverUserPlayback at hr
  rw [Table.mem_update] at hr
  obtain ⟨s, hs, he⟩ := hr
  split at he
  case isTrue =>
    subst he
    exact s.recover_status now reason hplay
  case isFalse hnot =>
    subst he
    exact hnot ⟨huser, hplay⟩

-- =============================== player rows

/-- A player row may go when nothing plays for it. -/
theorem effect_deletePlayers {p : Player → Prop} [DecidablePred p]
    (hidle : ∀ player ∈ db.players, p player → ∀ r ∈ db.playbacks,
      r.AssignedTo player.userID player.playerID player.generation →
      r.status ≠ .playing) :
    Effect g db { db with players := db.players.delete p } := by
  refine .players _ fun r hr hplay ⟨player, hplayer, hassigned⟩ => ?_
  refine ⟨player, Table.mem_delete.mpr ⟨hplayer, fun hp => ?_⟩, hassigned⟩
  exact hidle player hplayer hp r hr hassigned hplay

/-- Renewing a lease changes no ownership. -/
theorem effect_renew {p : Player → Prop} [DecidablePred p]
    {f : Player → Player} {hf : ∀ q, (f q).userID = q.userID}
    (hkeep : ∀ q, (f q).playerID = q.playerID
      ∧ (f q).generation = q.generation) :
    Effect g db { db with players := db.players.update p f hf } := by
  refine .players _ fun r _ _ ⟨player, hplayer, hassigned⟩ => ?_
  by_cases hp : p player
  · refine ⟨f player, ?_, ?_⟩
    · rw [Table.mem_update]
      exact ⟨player, hplayer, if_pos hp⟩
    · rw [hf, (hkeep player).1, (hkeep player).2]
      exact hassigned
  · refine ⟨player, ?_, hassigned⟩
    rw [Table.mem_update]
    exact ⟨player, hplayer, if_neg hp⟩

/-- A user's player row may be replaced when nothing plays for it. -/
theorem effect_connectPlayer {playerID : PlayerID}
    (hidle : ∀ player ∈ db.players, player.userID = userID →
      ∀ r ∈ db.playbacks,
      r.AssignedTo player.userID player.playerID player.generation →
      r.status ≠ .playing) :
    Effect g db (connectPlayer userID playerID now db) := by
  refine .players _ fun r hr hplay ⟨player, hplayer, hassigned⟩ => ?_
  have hother : userID ≠ player.userID := fun h =>
    hidle player hplayer h.symm r hr hassigned hplay
  refine ⟨player, ?_, hassigned⟩
  refine Table.mem_of_get? (k := player.userID) ?_
  rw [Table.get?_upsert, if_neg hother]
  exact Table.get?_key hplayer

end StreamBrew.Alert
