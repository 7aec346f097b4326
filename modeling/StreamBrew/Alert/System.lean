/-
The alert component as one machine: any caller may make any store call
at any time.

An action is a store call with everything its caller and its
surroundings choose: the arguments, the clock reading, the identifiers
it draws and the rows that are locked elsewhere. Nothing orders the
actions, and nothing relates one clock reading to the next, so a run
covers every interleaving of workers, players, dashboards and sweeps,
on clocks that may even go back.
-/
import StreamBrew.Lib.Run
import StreamBrew.Alert.Retention

namespace StreamBrew.Alert

/-- A store call. -/
inductive Action
  | ensureConfiguration (userID : UserID)
  | updateSettings (userID : UserID) (settings : Settings)
  | setPaused (userID : UserID) (paused : Bool)
  | saveAsset (userID : UserID) (kind : AssetKind) (media : Media)
      (assetID : AssetID) (now : Time)
  | deleteAsset (userID : UserID) (assetID : AssetID)
  | insertDonation (donation : Donation)
  | enqueueIncoming (userID : UserID) (donationID : DonationID)
      (source : Source) (acceptedAt : Time) (draw : Draw)
  | createTest (userID : UserID) (now : Time) (draw : Draw)
  | replay (userID : UserID) (sourcePlaybackID : PlaybackID) (now : Time)
      (draw : Draw)
  | skip (userID : UserID) (now : Time)
  | claimPreparation (now : Time) (locked : List Nat)
  | completePreparation (preparation : Preparation) (media : Media)
      (assetID : AssetID) (now : Time)
  | failPreparation (preparation : Preparation) (now : Time)
  | openPlayer (tokenHash : TokenHash) (candidateID : PlayerID)
      (now : Time)
  | heartbeat (tokenHash : TokenHash) (playerID : PlayerID)
      (generation : Int) (active visible : Bool) (now : Time)
  | releasePlayer (tokenHash : TokenHash) (playerID : PlayerID)
      (generation : Int) (now : Time)
  | setOverlayTokenHash (userID : UserID) (tokenHash : TokenHash)
      (now : Time)
  | streamState (tokenHash : TokenHash) (playerID : PlayerID)
      (generation : Int) (now : Time)
  | claimPlayback (tokenHash : TokenHash) (playerID : PlayerID)
      (generation : Int) (now : Time) (locked : List Nat)
  | startPlayback (tokenHash : TokenHash) (playerID : PlayerID)
      (generation : Int) (playbackID : PlaybackID) (now : Time)
  | finishPlayback (tokenHash : TokenHash) (playerID : PlayerID)
      (generation : Int) (playbackID : PlaybackID)
      (outcome : FinishOutcome) (now : Time)
  | recordPlaybackDiagnostic (tokenHash : TokenHash)
      (playerID : PlayerID) (generation : Int) (playbackID : PlaybackID)
      (code : DiagnosticCode) (now : Time)
  | pruneHistory (now : Time)
  | releaseHistoryMedia
  | deleteUnreferencedAssets
  deriving DecidableEq, Repr

/-- The database after a call. -/
def apply (db : Db) : Action → Db
  | .ensureConfiguration userID => ensureConfiguration userID db
  | .updateSettings userID settings => (updateSettings userID settings db).2
  | .setPaused userID paused => (setPaused userID paused db).2
  | .saveAsset userID kind media assetID now =>
      (saveAsset userID kind media assetID now db).2
  | .deleteAsset userID assetID => (deleteAsset userID assetID db).2
  | .insertDonation donation => (db.insertDonation donation).getD db
  | .enqueueIncoming userID donationID source acceptedAt draw =>
      match enqueueIncoming userID donationID source acceptedAt draw db with
      | .ok db' => db'
      | .error _ => db
  | .createTest userID now draw => (createTest userID now draw db).2
  | .replay userID sourcePlaybackID now draw =>
      (replay userID sourcePlaybackID now draw db).2
  | .skip userID now => (skip userID now db).2
  | .claimPreparation now locked => (claimPreparation now locked db).2
  | .completePreparation preparation media assetID now =>
      (completePreparation preparation media assetID now db).2
  | .failPreparation preparation now =>
      (failPreparation preparation now db).2
  | .openPlayer tokenHash candidateID now =>
      (openPlayer tokenHash candidateID now db).2
  | .heartbeat tokenHash playerID generation active visible now =>
      (heartbeat tokenHash playerID generation active visible now db).2
  | .releasePlayer tokenHash playerID generation now =>
      (releasePlayer tokenHash playerID generation now db).2
  | .setOverlayTokenHash userID tokenHash now =>
      (setOverlayTokenHash userID tokenHash now db).2
  | .streamState tokenHash playerID generation now =>
      (streamState tokenHash playerID generation now db).2
  | .claimPlayback tokenHash playerID generation now locked =>
      (claimPlayback tokenHash playerID generation now locked db).2
  | .startPlayback tokenHash playerID generation playbackID now =>
      (startPlayback tokenHash playerID generation playbackID now db).2
  | .finishPlayback tokenHash playerID generation playbackID outcome now =>
      (finishPlayback tokenHash playerID generation playbackID outcome now
        db).2
  | .recordPlaybackDiagnostic tokenHash playerID generation playbackID
      code now =>
      (recordPlaybackDiagnostic tokenHash playerID generation playbackID
        code now db).2
  | .pruneHistory now => pruneHistory now db
  | .releaseHistoryMedia => releaseHistoryMedia db
  | .deleteUnreferencedAssets => deleteUnreferencedAssets db

/-- The sweep is three calls in a row, as its statements commit one by
one. -/
theorem pruneRetention_eq_run (now : Time) (db : Db) :
    pruneRetention now db = Run.run apply db [.pruneHistory now,
      .releaseHistoryMedia, .deleteUnreferencedAssets] := rfl

/-- The database after some run of the component. -/
def Reachable (db : Db) : Prop := Run.Reachable apply Db.init db

end StreamBrew.Alert
