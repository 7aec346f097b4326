/-
Speech preparation: the store calls of store_preparation.go that
preparation workers make.

A worker claims a playback, synthesizes its message, and reports back
with the `Preparation` it was handed: the playback, and the generation
its claim was given. Between the claim and the report anything may
happen to the playback, another worker's claim included; the report
takes effect only while the playback is still preparing under that
generation.

`locked` stands for the rows that other transactions hold at the
moment of a claim, which `SKIP LOCKED` passes over.
-/
import StreamBrew.Alert.Queue

namespace StreamBrew.Alert

open Relational

/-- No unexpired preparation lease. -/
def Playback.Unleased (now : Time) (r : Playback) : Prop :=
  ∀ lease ∈ r.preparationLeaseExpiresAt, lease ≤ now

instance (now : Time) (r : Playback) : Decidable (r.Unleased now) :=
  match h : r.preparationLeaseExpiresAt with
  | none => isTrue fun _ hl => by rw [h] at hl; cases hl
  | some lease => decidable_of_iff (lease ≤ now)
      ⟨fun hle l hl => by rw [h] at hl; cases hl; exact hle,
        fun hu => hu lease (by rw [h]; rfl)⟩

/-- Expire the waiting playbacks of all users whose time is over. -/
def expireAll (now : Time) (db : Db) : Db :=
  { db with
    playbacks := db.playbacks.update
      (fun r => r.status.Waiting ∧ r.expiresAt ≤ now)
      (Playback.expire now .alertExpired) (Table.keeps rfl) }

/-- A playback goes on without speech. -/
def Playback.abandonSpeech (r : Playback) : Playback :=
  { r with
    status := .pending
    preparationLeaseExpiresAt := none
    lastError := some .ttsUnavailable }

/-- Queue the playbacks whose last attempt ended without a report. -/
def releaseExhausted (now : Time) (db : Db) : Db :=
  { db with
    playbacks := db.playbacks.update
      (fun r => r.status = .preparing ∧ r.expiresAt > now
        ∧ r.preparationAttempts ≥ preparationTries ∧ r.Unleased now)
      Playback.abandonSpeech (Table.keeps rfl) }

/-- The condition of the claim. -/
def Playback.Preparable (now : Time) (r : Playback) : Prop :=
  r.status = .preparing ∧ r.availableAt ≤ now ∧ r.expiresAt > now
    ∧ r.preparationAttempts < preparationTries ∧ r.Unleased now

instance (now : Time) : DecidablePred (Playback.Preparable now) :=
  fun _ => inferInstanceAs (Decidable (_ ∧ _))

/-- The `SET` clause of the claim. -/
def Playback.claimPreparation (now : Time) (r : Playback) : Playback :=
  { r with
    preparationGeneration := r.preparationGeneration + 1
    preparationAttempts := r.preparationAttempts + 1
    preparationLeaseExpiresAt := some (jsDate (now + preparationLease))
    lastError := none }

/-- Store.ClaimPreparation: the oldest playback that may be prepared and that
no other transaction has locked. -/
def claimPreparation (now : Time) (locked : List Nat) (db : Db) :
    Outcome (Option Preparation) :=
  let swept := releaseExhausted now (expireAll now db)
  match swept.playbacks.first
      (fun r => r.Preparable now ∧ r.queueSequence ∉ locked)
      Playback.queueSequence with
  | none => (.ok none, swept)
  | some candidate =>
      -- scanning a null message into the job fails the transaction
      match candidate.message with
      | none => (.error .database, db)
      | some text =>
          let claimed := candidate.claimPreparation now
          (.ok (some
            { playbackID := claimed.playbackID
              userID := claimed.userID
              generation := claimed.preparationGeneration
              attempts := claimed.preparationAttempts
              text
              voice := claimed.ttsVoice }),
          { swept with
            playbacks := swept.playbacks.update
              (fun r => r.playbackID = candidate.playbackID)
              (Playback.claimPreparation now) (Table.keeps rfl) })

/-- The playback a report is about, if its claim is still current. -/
def Playback.PreparedBy (preparation : Preparation) (r : Playback) :
    Prop :=
  r.playbackID = preparation.playbackID ∧ r.userID = preparation.userID
    ∧ r.preparationGeneration = preparation.generation
    ∧ r.status = .preparing

instance (preparation : Preparation) :
    DecidablePred (Playback.PreparedBy preparation) :=
  fun _ => inferInstanceAs (Decidable (_ ∧ _))

/-- The `SET` clause of CompletePreparation. -/
def Playback.attachSpeech (assetID : AssetID) (r : Playback) : Playback :=
  { r with
    status := .pending
    ttsAssetID := some assetID
    preparationLeaseExpiresAt := none
    lastError := none }

/-- Store the speech and queue the playback; both or neither. -/
def completePreparation (preparation : Preparation) (media : Media)
    (assetID : AssetID) (now : Time) (db : Db) : Outcome Unit :=
  match db.insertAsset preparation.userID .tts media assetID now with
  | none => (.error .database, db)
  | some (speech, inserted) =>
      if inserted.playbacks.count (Playback.PreparedBy preparation) = 1
      then (.ok (), { inserted with
        playbacks := inserted.playbacks.update
          (Playback.PreparedBy preparation)
          (Playback.attachSpeech speech) (Table.keeps rfl) })
      else (.error .conflict, db)

/-- The `SET` clause of FailPreparation. -/
def Playback.failPreparation (preparation : Preparation) (now : Time)
    (r : Playback) : Playback :=
  let terminal : Prop := preparation.attempts ≥ preparationTries
  { r with
    status :=
      if r.expiresAt ≤ now then .expired
      else if terminal then .pending else .preparing
    availableAt :=
      if terminal ∨ r.expiresAt ≤ now then r.availableAt
      else jsDate (min r.expiresAt (now + preparation.attempts * second))
    finishedAt :=
      if r.expiresAt ≤ now then some (jsDate now) else r.finishedAt
    preparationLeaseExpiresAt := none
    lastError := some .ttsUnavailable }

/-- Store.FailPreparation: another try, or the queue without speech. -/
def failPreparation (preparation : Preparation) (now : Time) (db : Db) :
    Outcome Unit :=
  let db' := { db with
    playbacks := db.playbacks.update (Playback.PreparedBy preparation)
      (Playback.failPreparation preparation now) (Table.keeps rfl) }
  if db.playbacks.count (Playback.PreparedBy preparation) = 1
  then (.ok (), db') else (.error .conflict, db')

end StreamBrew.Alert
