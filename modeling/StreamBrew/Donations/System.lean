/-
The store of donation ingestion as one machine: any caller may make any
store call at any time, with any arguments.

The alert component shares the database. Its calls are actions here
too, apart from the two that only a donation transaction makes, which
are part of the batches.
-/
import StreamBrew.Alert.System
import StreamBrew.Donations.Store

namespace StreamBrew.Donations

open Relational
open Alert (UserID Time)

/-- The alert calls that a donation transaction makes. -/
def Ingests : Alert.Action → Prop
  | .insertDonation _ | .enqueueIncoming _ _ _ _ _ => True
  | _ => False

instance : DecidablePred Ingests
  | .insertDonation _ | .enqueueIncoming _ _ _ _ _ => isTrue trivial
  | .ensureConfiguration _ | .updateSettings _ _ | .setPaused _ _
  | .saveAsset _ _ _ _ _ | .deleteAsset _ _ | .createTest _ _ _
  | .replay _ _ _ _ | .skip _ _ | .claimPreparation _ _
  | .completePreparation _ _ _ _ | .failPreparation _ _
  | .openPlayer _ _ _ | .heartbeat _ _ _ _ _ _ | .releasePlayer _ _ _ _
  | .setOverlayTokenHash _ _ _ | .streamState _ _ _ _
  | .claimPlayback _ _ _ _ _ | .startPlayback _ _ _ _ _
  | .finishPlayback _ _ _ _ _ _ | .recordPlaybackDiagnostic _ _ _ _ _ _
  | .pruneHistory _ | .releaseHistoryMedia | .deleteUnreferencedAssets =>
      isFalse id

/-- A store call. -/
inductive Call
  | saveConnectionWithDonations (provider : Provider) (userID : UserID)
      (connection : ProviderConnection) (batch : DonationBatch)
      (now : Time) (draws : List DonationDraw)
  | saveDonations (provider : Provider) (version : ConnectionVersion)
      (batch : DonationBatch) (origin : IngestionOrigin)
      (acceptedAt : Time) (draws : List DonationDraw)
  | setTokensIfVersion (provider : Provider) (version : ConnectionVersion)
      (tokens : Tokens)
  | disconnect (provider : Provider) (userID : UserID)
  | requireReauthorizationIfVersion (provider : Provider)
      (version : ConnectionVersion)
  | markConnectionErrorIfVersion (provider : Provider)
      (version : ConnectionVersion)
  | saveDonateStreamConnection (userID : UserID)
      (widgetGroupUID widgetToken : String)
  | insertDonateStreamDonations (userID : UserID) (widgetToken : String)
      (donations : List Donation) (origin : IngestionOrigin)
      (acceptedAt : Time) (draws : List DonationDraw)
  | disconnectDonateStream (userID : UserID)
  | disconnectDonateStreamIfToken (userID : UserID) (widgetToken : String)
  | saveTourniquetConnection (userID : UserID) (widgetToken : String)
  | insertTourniquetDonations (userID : UserID) (widgetToken : String)
      (donations : List Donation) (origin : IngestionOrigin)
      (acceptedAt : Time) (draws : List DonationDraw)
  | disconnectTourniquet (userID : UserID)
  | alert (action : { a : Alert.Action // ¬ Ingests a })

/-- The database after a call. -/
def perform (db : Db) : Call → Db
  | .saveConnectionWithDonations provider userID connection batch now
      draws =>
      (saveConnectionWithDonations provider userID connection batch now
        draws db).2
  | .saveDonations provider version batch origin acceptedAt draws =>
      (saveDonations provider version batch origin acceptedAt draws db).2
  | .setTokensIfVersion provider version tokens =>
      (setTokensIfVersion provider version tokens db).2
  | .disconnect provider userID => disconnect provider userID db
  | .requireReauthorizationIfVersion provider version =>
      (requireReauthorizationIfVersion provider version db).2
  | .markConnectionErrorIfVersion provider version =>
      (markConnectionErrorIfVersion provider version db).2
  | .saveDonateStreamConnection userID widgetGroupUID widgetToken =>
      (saveDonateStreamConnection userID widgetGroupUID widgetToken db).2
  | .insertDonateStreamDonations userID widgetToken donations origin
      acceptedAt draws =>
      (insertDonateStreamDonations userID widgetToken donations origin
        acceptedAt draws db).2
  | .disconnectDonateStream userID => disconnectDonateStream userID db
  | .disconnectDonateStreamIfToken userID widgetToken =>
      (disconnectDonateStreamIfToken userID widgetToken db).2
  | .saveTourniquetConnection userID widgetToken =>
      (saveTourniquetConnection userID widgetToken db).2
  | .insertTourniquetDonations userID widgetToken donations origin
      acceptedAt draws =>
      (insertTourniquetDonations userID widgetToken donations origin
        acceptedAt draws db).2
  | .disconnectTourniquet userID => disconnectTourniquet userID db
  | .alert action => { db with alert := Alert.apply db.alert action.1 }

end StreamBrew.Donations
