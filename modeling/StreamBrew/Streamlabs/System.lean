/-
Streamlabs histories and the passes that read them, beside the rest of
donation ingestion.

# The provider

An account has its history, newest first; donations are added at its
head at any moment, each with an id of its own. A request is answered
with the newest rows or with those below its cursor: some of them, a page
at most, and at least one where there is one.

# Passes

The import of a connection, the reconciliation of a listener and the
recovery of a history job are passes. A pass is started with the
connection that its owner has, reads page by page, and saves what it has
read when it has come to its end; it may fail or be given up at any
moment before. Listeners, jobs and the store are those of `Donations`,
and everything else that happens to them is `task`, apart from saves of
Streamlabs donations: these are the last steps of passes.
-/
import StreamBrew.Donations.Application
import StreamBrew.Lib.Backlog
import StreamBrew.Streamlabs.Client

namespace StreamBrew.Streamlabs

open Donations (Connection ConnectionRow ProviderConnection DonationDraw
  Stored)
open Alert (UserID Time)

/-- Who reads a history: a user who connects, a listener or a history
job, with the connection it had when it began to read. -/
inductive Owner
  | connect (userID : UserID) (connection : ProviderConnection)
  | listener (listenerID : Nat) (connection : Connection)
  | job (jobID : Nat) (connection : Connection)

/-- Whose donations are read. -/
def Owner.userID : Owner → UserID
  | .connect userID _ => userID
  | .listener _ connection | .job _ connection => connection.userID

/-- The account whose history is read. -/
def Owner.account : Owner → String
  | .connect _ connection => connection.sourceUserID
  | .listener _ connection | .job _ connection => connection.sourceUserID

/-- Where the reading stops. -/
def Owner.checkpoint : Owner → Option String
  | .connect _ _ => none
  | .listener _ connection | .job _ connection =>
      connection.historyCheckpoint

/-- A call of GetDonations by its owner. -/
structure Pass where
  owner : Owner
  progress : Progress

/-- A call of GetDonations by the owner. -/
def Pass.start (owner : Owner) : Pass :=
  { owner, progress := .next { checkpoint := owner.checkpoint } }

/-- The integrations, the histories of accounts, and the passes. -/
structure System (Json : Type) where
  app : Donations.State
  history : String → List Json
  passes : Nat → Option Pass

/-- Empty histories, and no passes. -/
def System.init (Json : Type) : System Json where
  app := .init
  history := fun _ => []
  passes := fun _ => none

/-- Donations that come in, and the steps of passes and of everyone else. -/
inductive Action (Json : Type)
  | publish (account : String) (body : Json)
  | connect (passID : Nat) (userID : UserID)
      (connection : ProviderConnection)
  | reconcile (passID listenerID : Nat)
  | recover (passID jobID : Nat)
  | page (passID size : Nat)
  | abandon (passID : Nat)
  | save (passID : Nat) (time : Time) (draws : List DonationDraw)
  | task (a : Donations.Action)

/-- The action saves Streamlabs donations. -/
def saves (app : Donations.State) : Donations.Action → Bool
  | .emit listenerID _ _ _ =>
      (app.listeners.get? listenerID).map (·.provider) = some .streamlabs
  | .syncHistory jobID (.ok _) _ _ =>
      (app.jobs.get? jobID).map (·.provider) = some .streamlabs
  | .store (.saveConnectionWithDonations provider _ _ _ _ _)
  | .store (.saveDonations provider _ _ _ _ _) => provider = .streamlabs
  | _ => false

section

variable {Json : Type} (codec : RowCodec Json)

/-- The id of a row; empty where it has none. -/
def rowID (body : Json) : String := (decodeDonation codec body).id

namespace System

/-- A pass begins, goes on, or is over. -/
def set (passID : Nat) (pass : Option Pass) (s : System Json) :
    System Json :=
  { s with passes := Function.update s.passes passID pass }

/-- A new donation; ids are given once. -/
def publish (account : String) (body : Json) (s : System Json) :
    System Json :=
  if rowID codec body ≠ ""
      ∧ ∃ row ∈ s.history account, rowID codec row = rowID codec body then s
  else
    { s with
      history := Function.update s.history account
        (body :: s.history account) }

/-- The answer of the provider to the request of a reading. -/
def answer (account : String) (r : Reading) (size : Nat)
    (s : System Json) : List Json :=
  let rows :=
    if r.before = "" then s.history account
    else Backlog.below (rowID codec) r.before (s.history account)
  rows.take (min (max 1 size) historyPageSize)

/-- A request of a pass and its page. -/
def page (passID size : Nat) (s : System Json) : System Json :=
  match s.passes passID with
  | some { owner, progress := .next r } =>
      let data := s.answer codec owner.account r size
      s.set passID
        (some { owner, progress := r.page (data.map (decodeDonation codec)) })
  | _ => s

/-- A pass of a listener or a job saves as long as its owner is there
with the connection it began with. -/
def save (passID : Nat) (time : Time) (draws : List DonationDraw)
    (s : System Json) : System Json :=
  match s.passes passID with
  | some { owner, progress := .done history } =>
      let s := s.set passID none
      let batch := streamlabsBatch history
      match owner with
      | .connect userID connection =>
          { s with
            app := Donations.step s.app (.store
              (.saveConnectionWithDonations .streamlabs userID connection
                batch time draws)) }
      | .listener listenerID connection =>
          if (s.app.listeners.get? listenerID).map
              (fun l => (l.provider, l.connection))
                = some (.streamlabs, connection) then
            { s with
              app := Donations.step s.app
                (.emit listenerID batch time draws) }
          else s
      | .job jobID connection =>
          if (s.app.jobs.get? jobID).map
              (fun job => (job.provider, job.connection))
                = some (.streamlabs, connection) then
            { s with
              app := Donations.step s.app
                (.syncHistory jobID (.ok batch) time draws) }
          else s
  | _ => s

/-- One step of the system. -/
def step (s : System Json) : Action Json → System Json
  | .publish account body => s.publish codec account body
  | .connect passID userID connection =>
      s.set passID (some (.start (.connect userID connection)))
  | .reconcile passID listenerID =>
      match s.app.listeners.get? listenerID with
      | none => s
      | some l =>
          if l.provider = .streamlabs then
            s.set passID (some (.start (.listener listenerID l.connection)))
          else s
  | .recover passID jobID =>
      match s.app.jobs.get? jobID with
      | none => s
      | some job =>
          if job.provider = .streamlabs then
            s.set passID (some (.start (.job jobID job.connection)))
          else s
  | .page passID size => s.page codec passID size
  | .abandon passID => s.set passID none
  | .save passID time draws => s.save passID time draws
  | .task a =>
      if saves s.app a then s
      else { s with app := Donations.step s.app a }

end System

end

end StreamBrew.Streamlabs
