/-
The hourly sweep of retention.go. Its three statements commit one by
one, so each is a step of its own; `pruneRetention` runs them in order.
-/
import StreamBrew.Alert.Player

namespace StreamBrew.Alert

open Relational

/-- `coalesce(finished_at, created_at)`. -/
def Playback.terminalAt (r : Playback) : Time :=
  r.finishedAt.getD r.createdAt

/-- The user's playbacks that are over. -/
def Playback.InHistory (userID : UserID) (r : Playback) : Prop :=
  r.userID = userID ∧ r.status.Terminal

instance (userID : UserID) : DecidablePred (Playback.InHistory userID) :=
  fun _ => inferInstanceAs (Decidable (_ ∧ _))

/-- A playback of the history that the sweep drops: too old, or not
among the newest 20 of its user. -/
def Playback.Retired (now : Time) (db : Db) (r : Playback) : Prop :=
  r.status.Terminal
    ∧ (r.terminalAt < now - terminalPlaybackRetention
      ∨ db.playbacks.rank (Playback.InHistory r.userID)
          Playback.queueSequence r + 1 > maxRetainedTerminalPlaybacks)

instance (now : Time) (db : Db) :
    DecidablePred (Playback.Retired now db) :=
  fun _ => inferInstanceAs (Decidable (_ ∧ _))

/-- Delete retired playbacks; their diagnostics go with them. -/
def pruneHistory (now : Time) (db : Db) : Db :=
  { db with
    playbacks := db.playbacks.delete (Playback.Retired now db)
    rendererDiagnostics := db.rendererDiagnostics.delete fun d =>
      db.playbacks.Exists fun r =>
        r.playbackID = d.playbackID ∧ r.userID = d.userID
          ∧ r.Retired now db }

/-- The user's configuration selects the file as its image. -/
def SelectedImage (userID : UserID) (assetID : AssetID) (db : Db) : Prop :=
  db.configurations.Exists fun c =>
    c.userID = userID ∧ c.imageAssetID = some assetID

/-- The user's configuration selects the file as its sound. -/
def SelectedSound (userID : UserID) (assetID : AssetID) (db : Db) : Prop :=
  db.configurations.Exists fun c =>
    c.userID = userID ∧ c.soundAssetID = some assetID

instance (userID : UserID) (assetID : AssetID) (db : Db) :
    Decidable (SelectedImage userID assetID db) :=
  inferInstanceAs (Decidable (Table.Exists _ _))

instance (userID : UserID) (assetID : AssetID) (db : Db) :
    Decidable (SelectedSound userID assetID db) :=
  inferInstanceAs (Decidable (Table.Exists _ _))

/-- Drop the references that the configuration no longer makes. -/
def Playback.releaseMedia (db : Db) (r : Playback) : Playback :=
  { r with
    imageAssetID := r.imageAssetID.filter fun a =>
      SelectedImage r.userID a db
    soundAssetID := r.soundAssetID.filter fun a =>
      SelectedSound r.userID a db
    ttsAssetID := none }

/-- Finished playbacks keep the media that is still selected, and no other. -/
def releaseHistoryMedia (db : Db) : Db :=
  { db with
    playbacks := db.playbacks.update
      (fun r => r.status.Terminal ∧ (r.imageAssetID ≠ none
        ∨ r.soundAssetID ≠ none ∨ r.ttsAssetID ≠ none))
      (Playback.releaseMedia db) (Table.keeps rfl) }

/-- Delete the files that nothing refers to. -/
def deleteUnreferencedAssets (db : Db) : Db :=
  { db with
    assets := db.assets.delete fun a =>
      (¬ db.configurations.Exists fun c =>
        c.imageAssetID = some a.assetID ∨ c.soundAssetID = some a.assetID)
      ∧ ¬ db.playbacks.Exists fun r => r.References a.assetID }

/-- The sweep of the maintenance loop. -/
def pruneRetention (now : Time) (db : Db) : Db :=
  deleteUnreferencedAssets (releaseHistoryMedia (pruneHistory now db))

end StreamBrew.Alert
