/-
The alert tables of the database and the store calls of store.go:
the streamer's configuration and the media files it selects.

# Store calls

A store call is a function from the database to its outcome: the value
or error the caller sees, and the database after it. A call that runs
in one transaction leaves the database unchanged when the transaction
fails, and its committed state otherwise; some calls commit and still
report an error (a lease found lost), so outcome and state are separate.

What a call draws from outside (its clock reading, a generated
identifier) is an argument. Row locks have no counterpart: a call is
one step, which is what the locks are for.

# References

Foreign keys are not enforced by these statements. That every media
file a playback or a configuration names exists and belongs to the
same user is a theorem about the reachable states, so the constraints
never fire.
-/
import StreamBrew.Alert.Domain

namespace StreamBrew.Alert

open Relational

/-- The alert tables, the donations they refer to, and the last value
drawn from the `queue_sequence` identity. -/
structure Db where
  donations : Table Donation.donationID
  configurations : Table Configuration.userID
  alertSources : Table AlertSource.key
  overlays : Table Overlay.userID
  players : Table Player.userID
  assets : Table Asset.assetID
  playbacks : Table Playback.queueSequence
  rendererDiagnostics : Table RendererDiagnostic.key
  sequence : Nat

/-- The database before any call. -/
def Db.init : Db where
  donations := .empty
  configurations := .empty
  alertSources := .empty
  overlays := .empty
  players := .empty
  assets := .empty
  playbacks := .empty
  rendererDiagnostics := .empty
  sequence := 0

/-- What a caller sees of a call, and the database after it. -/
abbrev Outcome (α : Type) := Except StoreError α × Db

-- ============================= configuration

/-- Insert the default configuration and enable every source, where
they are missing. -/
def ensureConfiguration (userID : UserID) (db : Db) : Db :=
  { db with
    configurations := db.configurations.insertOrIgnore { userID }
    alertSources := allSources.foldl
      (fun t source => t.insertOrIgnore { userID, source })
      db.alertSources }

/-- The asset is null, or names a file of the user with that kind. -/
def validateAssetReference (userID : UserID) (assetID : Option AssetID)
    (kind : AssetKind) (db : Db) : Prop :=
  ∀ a ∈ assetID, db.assets.Exists fun asset =>
    asset.assetID = a ∧ asset.userID = userID ∧ asset.kind = kind

instance (userID : UserID) (assetID : Option AssetID) (kind : AssetKind)
    (db : Db) : Decidable (validateAssetReference userID assetID kind db) :=
  match assetID with
  | none => isTrue fun _ h => by cases h
  | some a => decidable_of_iff
      (db.assets.Exists fun asset =>
        asset.assetID = a ∧ asset.userID = userID ∧ asset.kind = kind)
      ⟨fun h b hb => Option.mem_some.mp hb ▸ h,
        fun h => h a (Option.mem_some.mpr rfl)⟩

/-- Store.UpdateSettings: settings and sources change together. -/
def updateSettings (userID : UserID) (settings : Settings) (db : Db) :
    Outcome Unit :=
  let settings := { settings with ttsVoice := trimSpace settings.ttsVoice }
  match settings.validate with
  | .error message => (.error (.validation message), db)
  | .ok () =>
      let ensured := ensureConfiguration userID db
      if validateAssetReference userID settings.imageAssetID .image ensured
          ∧ validateAssetReference userID settings.soundAssetID .sound
            ensured then
        (.ok (), { ensured with
          configurations := ensured.configurations.update
            (fun c => c.userID = userID)
            (fun c => { c with
              enabled := settings.enabled
              displayDurationMS := settings.displayDurationMS.toNat
              soundVolume := settings.soundVolume.toNat
              ttsEnabled := settings.ttsEnabled
              ttsVoice := settings.ttsVoice
              ttsVolume := settings.ttsVolume.toNat
              accentColor := settings.accentColor
              imageAssetID := settings.imageAssetID
              soundAssetID := settings.soundAssetID })
            (Table.keeps rfl)
          alertSources := ensured.alertSources.update
            (fun s => s.userID = userID)
            (fun s => { s with
              enabled := settings.enabledSources.contains s.source.name })
            (Table.keeps rfl) })
      else (.error .notFound, db)

/-- Store.SetPaused -/
def setPaused (userID : UserID) (paused : Bool) (db : Db) : Outcome Unit :=
  let ensured := ensureConfiguration userID db
  (.ok (), { ensured with
    configurations := ensured.configurations.update
      (fun c => c.userID = userID) (fun c => { c with paused })
      (Table.keeps rfl) })

-- ================================= donations

/-- Insert a donation row; refused when its id or its source reference
is taken. -/
def Db.insertDonation (donation : Donation) (db : Db) : Option Db :=
  if db.donations.Exists fun d => d.userID = donation.userID
      ∧ d.source = donation.source
      ∧ d.sourceDonationID = donation.sourceDonationID then none
  else (db.donations.insert? donation).map fun donations =>
    { db with donations }

-- ==================================== assets

/-- `INSERT .. ON CONFLICT (user_id, kind, content_hash) DO UPDATE ..
RETURNING`: the file already stored with this content, or a new one
under the drawn id. -/
def Db.insertAsset (userID : UserID) (kind : AssetKind) (media : Media)
    (assetID : AssetID) (now : Time) (db : Db) : Option (AssetID × Db) :=
  match db.assets.find? fun a => a.userID = userID ∧ a.kind = kind
      ∧ a.contentHash = media.contentHash with
  | some asset => some (asset.assetID, db)
  | none =>
      (db.assets.insert?
        { assetID, userID, kind
          mimeType := media.mimeType
          contentHash := media.contentHash
          durationMS := if media.durationMS > 0
            then some media.durationMS else none
          createdAt := jsDate now }).map fun assets =>
        (assetID, { db with assets })

/-- Store.SaveAsset: the file is stored, once for each content, and selected. -/
def saveAsset (userID : UserID) (kind : AssetKind) (media : Media)
    (assetID : AssetID) (now : Time) (db : Db) : Outcome AssetID :=
  let ensured := ensureConfiguration userID db
  match ensured.insertAsset userID kind media assetID now with
  | none => (.error .database, db)
  | some (saved, db') =>
      match kind with
      | .tts => (.error .unselectableAsset, db)
      | .image => (.ok saved, { db' with
          configurations := db'.configurations.update
            (fun c => c.userID = userID)
            (fun c => { c with imageAssetID := some saved })
            (Table.keeps rfl) })
      | .sound => (.ok saved, { db' with
          configurations := db'.configurations.update
            (fun c => c.userID = userID)
            (fun c => { c with soundAssetID := some saved })
            (Table.keeps rfl) })

/-- Some playback, in any status, names the file. -/
def Playback.References (r : Playback) (assetID : AssetID) : Prop :=
  r.imageAssetID = some assetID ∨ r.soundAssetID = some assetID
    ∨ r.ttsAssetID = some assetID

instance (r : Playback) (assetID : AssetID) :
    Decidable (r.References assetID) :=
  inferInstanceAs (Decidable (_ ∨ _))

/-- The `SET` clause of the configuration update in DeleteAsset. -/
def Configuration.deselect (assetID : AssetID) (c : Configuration) :
    Configuration :=
  { c with
    imageAssetID := if c.imageAssetID = some assetID then none
      else c.imageAssetID
    soundAssetID := if c.soundAssetID = some assetID then none
      else c.soundAssetID }

/-- The `SET` clause of the playback update in DeleteAsset. -/
def Playback.deselect (assetID : AssetID) (r : Playback) : Playback :=
  { r with
    imageAssetID := if r.imageAssetID = some assetID then none
      else r.imageAssetID
    soundAssetID := if r.soundAssetID = some assetID then none
      else r.soundAssetID }

/-- Store.DeleteAsset: the file is deselected wherever it may be, and
deleted. -/
def deleteAsset (userID : UserID) (assetID : AssetID) (db : Db) :
    Outcome Unit :=
  let ensured := ensureConfiguration userID db
  if ensured.assets.Exists fun a =>
      a.assetID = assetID ∧ a.userID = userID ∧ a.kind ≠ .tts then
    let configurations := ensured.configurations.update
      (fun c => c.userID = userID) (Configuration.deselect assetID)
      (Table.keeps rfl)
    let playbacks := ensured.playbacks.update
      (fun r => r.userID = userID ∧ r.status.Terminal
        ∧ (r.imageAssetID = some assetID ∨ r.soundAssetID = some assetID))
      (Playback.deselect assetID) (Table.keeps rfl)
    let assets := ensured.assets.delete fun a =>
      a.assetID = assetID ∧ a.userID = userID
        ∧ ¬ playbacks.Exists fun r => r.References assetID
    (.ok (), { ensured with configurations, playbacks, assets })
  else (.error .notFound, db)

end StreamBrew.Alert
