/-
The active player: the store calls of store_player.go, and the two of
store_dashboard.go that rotate the overlay token and poll for a stream.

# Who may call

A caller presents a token hash, a player id and a generation. Each
call finds the player row again through the overlay with that token
(`Db.player?`), so a caller that lost its row, its generation or its
token finds nothing. What a call does when the lease it finds has
ended is the call's own.

# Returning a claimed playback

A claim is not yet a delivery: until the renderer acknowledges the
start, the playback can return to the queue, and afterwards it cannot.
`Playback.recover` is the `SET` clause of both statements that take a
playback away from its player.
-/
import StreamBrew.Alert.Preparation

namespace StreamBrew.Alert

open Relational

-- ================================ statements

/-- The player row of a caller: `donation_alert_player JOIN
donation_alert_overlay USING (user_id)` on token, id and generation. -/
def Db.player? (tokenHash : TokenHash) (playerID : PlayerID)
    (generation : Int) (db : Db) : Option Player :=
  db.players.find? fun player =>
    player.playerID = playerID ∧ player.generation = generation
      ∧ db.overlays.Exists fun overlay =>
        overlay.userID = player.userID ∧ overlay.tokenHash = tokenHash

/-- The playback is assigned to this player generation. -/
def Playback.AssignedTo (userID : UserID) (playerID : PlayerID)
    (generation : Int) (r : Playback) : Prop :=
  r.userID = userID ∧ r.playerID = some playerID
    ∧ r.playerGeneration = some generation

instance (userID : UserID) (playerID : PlayerID) (generation : Int) :
    DecidablePred (Playback.AssignedTo userID playerID generation) :=
  fun _ => inferInstanceAs (Decidable (_ ∧ _))

/-- Take a playback from its player: back to the queue while it is
fresh and unstarted, over otherwise. -/
def Playback.recover (now : Time) (reason : DiagnosticCode)
    (r : Playback) : Playback :=
  { r with
    status :=
      if r.startedAt = none ∧ r.expiresAt > now then .pending
      else if r.startedAt = none then .expired
      else .interrupted
    finishedAt :=
      if r.startedAt = none ∧ r.expiresAt > now then none
      else some (jsDate now)
    playerID := if r.startedAt = none then none else r.playerID
    playerGeneration :=
      if r.startedAt = none then none else r.playerGeneration
    lastError :=
      if r.startedAt = none ∧ r.expiresAt > now then none
      else if r.startedAt = none then some .alertExpired
      else some reason }

/-- What a player plays goes back to the queue, or is over. -/
def recoverAssignedPlayback (userID : UserID) (playerID : PlayerID)
    (generation : Int) (now : Time) (reason : DiagnosticCode) (db : Db) :
    Db :=
  { db with
    playbacks := db.playbacks.update
      (fun r => r.AssignedTo userID playerID generation
        ∧ r.status = .playing)
      (Playback.recover now reason) (Table.keeps rfl) }

/-- What any player of the user plays goes back to the queue, or is over. -/
def recoverUserPlayback (userID : UserID) (now : Time)
    (reason : DiagnosticCode) (db : Db) : Db :=
  { db with
    playbacks := db.playbacks.update
      (fun r => r.userID = userID ∧ r.status = .playing)
      (Playback.recover now reason) (Table.keeps rfl) }

/-- The playing playback has waited too long for its next
acknowledgement. -/
def Playback.TimedOut (now : Time) (r : Playback) : Prop :=
  (r.startedAt = none ∧ r.expiresAt ≤ now)
    ∨ ∃ startedAt ∈ r.startedAt,
      startedAt ≤ now - playbackAcknowledgementTimeout

instance (now : Time) (r : Playback) : Decidable (r.TimedOut now) :=
  match h : r.startedAt with
  | none => decidable_of_iff (r.expiresAt ≤ now)
      ⟨fun he => Or.inl ⟨h, he⟩, fun ht => ht.elim And.right
        fun ⟨s, hs, _⟩ => by rw [h] at hs; cases hs⟩
  | some startedAt => decidable_of_iff
      (startedAt ≤ now - playbackAcknowledgementTimeout)
      ⟨fun hs => Or.inr ⟨startedAt, h, hs⟩, fun ht => ht.elim
        (fun hn => by rw [h] at hn; cases hn.1)
        fun ⟨s, hs, hle⟩ => by rw [h] at hs; cases hs; exact hle⟩

/-- The `SET` clause of recoverTimedOutPlayback. -/
def Playback.timeOut (now : Time) (r : Playback) : Playback :=
  { r with
    status := if r.startedAt = none then .expired else .interrupted
    finishedAt := some (jsDate now)
    playerID := if r.startedAt = none then none else r.playerID
    playerGeneration :=
      if r.startedAt = none then none else r.playerGeneration
    lastError := if r.startedAt = none then some .alertExpired
      else some .playbackTimeout }

/-- Playbacks whose acknowledgement is overdue are interrupted. -/
def recoverTimedOutPlayback (userID : UserID) (now : Time) (db : Db) :
    Db :=
  { db with
    playbacks := db.playbacks.update
      (fun r => r.userID = userID ∧ r.status = .playing ∧ r.TimedOut now)
      (Playback.timeOut now) (Table.keeps rfl) }

/-- Expire the user's waiting playbacks whose time is over. -/
def expireBacklog (userID : UserID) (now : Time) (db : Db) : Db :=
  { db with
    playbacks := db.playbacks.update
      (fun r => r.InBacklog userID ∧ r.expiresAt ≤ now)
      (Playback.expire now .alertExpired)
      (Playback.expire_keeps now .alertExpired) }

/-- `DELETE FROM donation_alert_player` for one generation. -/
def deletePlayer (userID : UserID) (playerID : PlayerID)
    (generation : Int) (db : Db) : Db :=
  { db with
    players := db.players.delete fun p => p.userID = userID
      ∧ p.playerID = playerID ∧ p.generation = generation }

-- ======================= opening and leaving

/-- The identity OpenPlayer hands to a widget. -/
structure OpenedPlayer where
  playerID : PlayerID
  generation : Int
  state : String
  active : Bool
  visible : Bool
  lastHeartbeatAt : Time
  leaseExpiresAt : Time
  deriving DecidableEq, Repr

/-- The row a player without predecessor gets; a successor takes the
generation after its predecessor's. -/
def connectPlayer (userID : UserID) (playerID : PlayerID) (now : Time)
    (db : Db) : Db :=
  { db with
    players := db.players.upsert
      { userID, playerID, generation := 1, active := false
        visible := false
        connectedAt := jsDate now
        lastSeenAt := jsDate now
        leaseExpiresAt := jsDate (now + playerLease) }
      (fun p => { p with
        playerID
        generation := p.generation + 1
        active := false
        visible := false
        connectedAt := jsDate now
        lastSeenAt := jsDate now
        leaseExpiresAt := jsDate (now + playerLease) })
      (Table.keeps rfl) }

/-- Store.OpenPlayer: the lease is taken where it is free or has lapsed, and
what its last holder played is recovered. -/
def openPlayer (tokenHash : TokenHash) (candidateID : PlayerID)
    (now : Time) (db : Db) : Outcome (UserID × OpenedPlayer) :=
  match db.overlays.find? fun o => o.tokenHash = tokenHash with
  | none => (.error .invalidToken, db)
  | some overlay =>
      let userID := overlay.userID
      let opened (generation : Int) : OpenedPlayer :=
        { playerID := candidateID, generation, state := "active"
          active := false, visible := false, lastHeartbeatAt := now
          leaseExpiresAt := now + playerLease }
      match db.players.get? userID with
      | none =>
          (.ok (userID, opened 1), connectPlayer userID candidateID now db)
      | some current =>
          if current.leaseExpiresAt > now then
            (.ok (userID,
              { playerID := candidateID
                generation := current.generation, state := "standby"
                active := current.active, visible := current.visible
                lastHeartbeatAt := current.lastSeenAt
                leaseExpiresAt := current.leaseExpiresAt }), db)
          else
            (.ok (userID, opened (current.generation + 1)),
              connectPlayer userID candidateID now
                (recoverAssignedPlayback userID current.playerID
                  current.generation now .playerDisconnected db))

/-- Store.Heartbeat: the lease is renewed while it lasts. -/
def heartbeat (tokenHash : TokenHash) (playerID : PlayerID)
    (generation : Int) (active visible : Bool) (now : Time) (db : Db) :
    Outcome Unit :=
  match db.player? tokenHash playerID generation with
  | none => (.error .leaseLost, db)
  | some player =>
      let userID := player.userID
      if ¬ player.leaseExpiresAt > now then
        (.error .leaseLost, recoverAssignedPlayback userID playerID
          generation now .playerDisconnected db)
      else
        let renewed := { db with
          players := db.players.update
            (fun p => p.userID = userID ∧ p.playerID = playerID
              ∧ p.generation = generation)
            (fun p => { p with
              active, visible
              lastSeenAt := jsDate now
              leaseExpiresAt := jsDate (now + playerLease) })
            (Table.keeps rfl) }
        if !active || !visible then
          (.ok (), recoverAssignedPlayback userID playerID generation now
            .playerDisconnected renewed)
        else (.ok (), renewed)

/-- Store.ReleasePlayer: the lease and what is played under it are given up. -/
def releasePlayer (tokenHash : TokenHash) (playerID : PlayerID)
    (generation : Int) (now : Time) (db : Db) : Outcome Unit :=
  match db.player? tokenHash playerID generation with
  | none => (.ok (), db)
  | some player =>
      (.ok (), deletePlayer player.userID playerID generation
        (recoverAssignedPlayback player.userID playerID generation now
          .playerDisconnected db))

/-- Replace the overlay token; refused when another user has it. -/
def setOverlayTokenHash (userID : UserID) (tokenHash : TokenHash)
    (now : Time) (db : Db) : Outcome Unit :=
  let ensured := ensureConfiguration userID db
  let recovered := recoverUserPlayback userID now .overlayRotated ensured
  if recovered.overlays.Exists fun o =>
      o.tokenHash = tokenHash ∧ o.userID ≠ userID then
    (.error .database, db)
  else
    (.ok (), { recovered with
      players := recovered.players.delete fun p => p.userID = userID
      overlays := recovered.overlays.upsert { userID, tokenHash }
        (fun o => { o with tokenHash }) (Table.keeps rfl) })

-- ================================== playback

/-- Poll for a stream: the pause flag, and the playback the player
holds. -/
def streamState (tokenHash : TokenHash) (playerID : PlayerID)
    (generation : Int) (now : Time) (db : Db) :
    Outcome (Bool × Option Playback) :=
  match db.player? tokenHash playerID generation with
  | none => (.error .leaseLost, db)
  | some player =>
      let userID := player.userID
      match db.configurations.get? userID with
      | none => (.error .leaseLost, db)
      | some configuration =>
          if ¬ player.leaseExpiresAt > now then
            (.error .leaseLost, recoverAssignedPlayback userID playerID
              generation now .playerDisconnected db)
          else
            let db' := recoverTimedOutPlayback userID now db
            (.ok (configuration.paused, db'.playbacks.first
              (fun r => r.AssignedTo userID playerID generation
                ∧ r.status = .playing)
              Playback.queueSequence), db')

/-- A pending playback that is due, with nothing playing and nothing
fresh ahead of it. -/
def Playback.Claimable (now : Time) (db : Db) (r : Playback) : Prop :=
  r.status = .pending ∧ r.availableAt ≤ now ∧ r.expiresAt > now
    ∧ (¬ db.playbacks.Exists fun playing =>
        playing.userID = r.userID ∧ playing.status = .playing)
    ∧ ¬ db.playbacks.Exists fun earlier =>
        earlier.InBacklog r.userID ∧ earlier.expiresAt > now
          ∧ earlier.queueSequence < r.queueSequence

instance (now : Time) (db : Db) :
    DecidablePred (Playback.Claimable now db) :=
  fun _ => inferInstanceAs (Decidable (_ ∧ _))

/-- The `SET` clause of the claim. -/
def Playback.assign (playerID : PlayerID) (generation : Int)
    (r : Playback) : Playback :=
  { r with
    status := .playing
    playerID := some playerID
    playerGeneration := some generation }

/-- Hand the head of the queue to the player. -/
def claimPlayback (tokenHash : TokenHash) (playerID : PlayerID)
    (generation : Int) (now : Time) (locked : List Nat) (db : Db) :
    Outcome (Option Playback) :=
  match db.player? tokenHash playerID generation with
  | none => (.error .leaseLost, db)
  | some player =>
      let userID := player.userID
      match db.configurations.get? userID with
      | none => (.error .leaseLost, db)
      | some configuration =>
          if ¬ player.leaseExpiresAt > now then
            (.error .leaseLost, recoverAssignedPlayback userID playerID
              generation now .playerDisconnected db)
          else
            let swept := expireBacklog userID now
              (recoverTimedOutPlayback userID now db)
            if !player.active || !player.visible
                || configuration.paused then (.ok none, swept)
            else match swept.playbacks.first
                (fun r => r.userID = userID ∧ r.Claimable now swept
                  ∧ r.queueSequence ∉ locked)
                Playback.queueSequence with
            | none => (.ok none, swept)
            | some candidate =>
                let claimed := { swept with
                  playbacks := swept.playbacks.update
                    (fun r => r.playbackID = candidate.playbackID)
                    (Playback.assign playerID generation)
                    (Table.keeps rfl) }
                match claimed.playback? candidate.playbackID with
                | none => (.error .notFound, claimed)
                | some playback => (.ok (some playback), claimed)

/-- The playback belongs to a caller whose lease holds: the join and
the conditions that the acknowledgements share. -/
def Playback.HeldBy (tokenHash : TokenHash) (playerID : PlayerID)
    (generation : Int) (playbackID : PlaybackID) (now : Time) (db : Db)
    (r : Playback) : Prop :=
  r.playbackID = playbackID ∧ db.players.Exists fun player =>
    player.playerID = playerID ∧ player.generation = generation
      ∧ player.leaseExpiresAt > now
      ∧ (db.overlays.Exists fun overlay =>
        overlay.userID = player.userID ∧ overlay.tokenHash = tokenHash)
      ∧ r.AssignedTo player.userID playerID generation

instance (tokenHash : TokenHash) (playerID : PlayerID)
    (generation : Int) (playbackID : PlaybackID) (now : Time) (db : Db) :
    DecidablePred
      (Playback.HeldBy tokenHash playerID generation playbackID now db) :=
  fun _ => inferInstanceAs (Decidable (_ ∧ _))

/-- An acknowledgement: one `UPDATE` that must meet exactly one row. -/
def acknowledge (p : Playback → Prop) [DecidablePred p]
    (f : Playback → Playback)
    (hf : ∀ r, (f r).queueSequence = r.queueSequence) (db : Db) :
    Outcome Unit :=
  let db' := { db with playbacks := db.playbacks.update p f hf }
  if db.playbacks.count p = 1 then (.ok (), db')
  else (.error .leaseLost, db')

/-- Store.StartPlayback: the first start is the one that counts. -/
def startPlayback (tokenHash : TokenHash) (playerID : PlayerID)
    (generation : Int) (playbackID : PlaybackID) (now : Time) (db : Db) :
    Outcome Unit :=
  acknowledge
    (fun r => r.HeldBy tokenHash playerID generation playbackID now db
      ∧ r.status = .playing)
    (fun r => { r with
      startedAt := some (r.startedAt.getD (jsDate now)) })
    (Table.keeps rfl) db

/-- The `SET` clause of FinishPlayback with an interrupted outcome. -/
def Playback.interrupt (now : Time) (r : Playback) : Playback :=
  { r with
    status :=
      if r.startedAt = none ∧ r.expiresAt > now then .pending
      else if r.startedAt = none then .expired
      else .interrupted
    finishedAt :=
      if r.startedAt = none ∧ r.expiresAt > now then none
      else some (r.finishedAt.getD (jsDate now))
    playerID := if r.startedAt = none then none else r.playerID
    playerGeneration :=
      if r.startedAt = none then none else r.playerGeneration
    lastError :=
      if r.startedAt = none ∧ r.expiresAt > now then none
      else if r.startedAt = none then some .alertExpired
      else if r.status = .interrupted then r.lastError
      else some (r.lastError.getD .playbackIssue) }

/-- Store.FinishPlayback: a playback is completed after it was started, or
interrupted and handed back. -/
def finishPlayback (tokenHash : TokenHash) (playerID : PlayerID)
    (generation : Int) (playbackID : PlaybackID)
    (outcome : FinishOutcome) (now : Time) (db : Db) : Outcome Unit :=
  match outcome with
  | .completed => acknowledge
      (fun r => r.HeldBy tokenHash playerID generation playbackID now db
        ∧ r.startedAt ≠ none
        ∧ (r.status = .playing ∨ r.status = .completed))
      (fun r => { r with
        status := .completed
        finishedAt := some (r.finishedAt.getD (jsDate now)) })
      (Table.keeps rfl) db
  | .interrupted => acknowledge
      (fun r => r.HeldBy tokenHash playerID generation playbackID now db
        ∧ (r.status = .playing ∨ r.status = .interrupted))
      (Playback.interrupt now) (Table.keeps rfl) db

/-- Record that the renderer could not show or play a part of a started
playback; the earliest report of a code is kept. -/
def recordPlaybackDiagnostic (tokenHash : TokenHash)
    (playerID : PlayerID) (generation : Int) (playbackID : PlaybackID)
    (code : DiagnosticCode) (now : Time) (db : Db) : Outcome Unit :=
  if !validRendererDiagnostic code then (.error .invalidDiagnostic, db)
  else match db.playbacks.find? fun r =>
      r.HeldBy tokenHash playerID generation playbackID now db
        ∧ r.startedAt ≠ none
        ∧ (r.status = .playing ∨ r.status = .completed
          ∨ r.status = .interrupted) with
  | none => (.error .leaseLost, db)
  | some r => (.ok (), { db with
      rendererDiagnostics := db.rendererDiagnostics.upsert
        { playbackID := r.playbackID, userID := r.userID, code
          occurredAt := jsDate now }
        (fun d => { d with
          occurredAt := min d.occurredAt (jsDate now) })
        (Table.keeps rfl) })

end StreamBrew.Alert
