/-
The history of a DonationAlerts account: getDonations of the client, and
the passes that read it beside the rest of donation ingestion.

# Pages

Pages are asked for by number, until the one that the provider calls the
last, or an empty one. Every row is decoded on its own; one that fails is
reported and skipped. A recent pass keeps the donations after a time and
stops at its fourth page; their order in the history tells it nothing.

# The provider

An account has a list of rows, and a request is answered with the page of
that number of the list as it is then. Donations are added at any moment,
anywhere in the list, so pages that were read move on. JSON is a type of
its own, `RowCodec` says what a row decodes to, and `parseTime` is
`time.ParseInLocation(donationDateLayout, ·, time.UTC)`.

# Passes

The import of a connection and a history job are passes: they read page
by page and save what they have read when they have come to the end, as
in `Streamlabs`. Everything else that happens to connections, listeners
and jobs is `task`.
-/
import StreamBrew.Donations.Application
import StreamBrew.StreamElements.Client
import StreamBrew.Lib.Pages

namespace StreamBrew.DonationAlerts.Client

open StreamElements (currencyPattern donorText columnAmount)
open Donations (GoTime Connection ProviderConnection DonationDraw)
open Alert (UserID Time)

-- ====================================== rows

/-- A donation as the integration hands it on. -/
structure Donation where
  sourceDonationID : String
  author : Option String
  message : Option String
  amount : String
  currency : String
  sourceCreatedAt : String
  occurredAt : GoTime
  deriving DecidableEq, Repr

/-- A row as the provider gives it. -/
structure RawDonation where
  id : String := ""
  username : Option String := none
  message : Option String := none
  amount : String := ""
  currency : String := ""
  createdAt : String := ""
  deriving DecidableEq, Repr

/-- Why a row is rejected. -/
inductive RowError
  | malformed
  | identityOrCurrency
  | amount
  | date
  deriving DecidableEq, Repr

/-- rawDonation.donation -/
def RawDonation.donation (parseTime : String → Option GoTime)
    (raw : RawDonation) : Except RowError Donation :=
  if raw.id = "" ∨ !currencyPattern raw.currency then
    .error .identityOrCurrency
  else
    match Money.normalizeDonationAmount raw.amount.toList with
    | none => .error .amount
    | some amount =>
        match parseTime raw.createdAt with
        | none => .error .date
        | some occurredAt =>
            .ok
              { sourceDonationID := raw.id
                author := donorText raw.username
                message := donorText raw.message
                amount := String.ofList amount
                currency := raw.currency
                sourceCreatedAt := raw.createdAt
                occurredAt }

/-- What the document of a row decodes to: an id, string or number, and
all that a donation has. -/
structure RowCodec (Json : Type) where
  identity : Json → Option String
  fields : Json → Option RawDonation
  parseTime : String → Option GoTime

variable {Json : Type} (codec : RowCodec Json)

/-- A row, where its document and its fields are right. -/
def decodeDonation (body : Json) : Except RowError Donation :=
  match codec.fields body with
  | none => .error .malformed
  | some raw => raw.donation codec.parseTime

/-- The identifier of a row that was not decoded. -/
def rejectedDonationID (body : Json) : String :=
  (codec.identity body).getD ""

/-- A row that was not decoded, and why. -/
structure RejectedDonation where
  sourceDonationID : String
  error : RowError
  deriving DecidableEq, Repr

/-- What a reading hands on. -/
structure History where
  donations : List Donation := []
  rejected : List RejectedDonation := []
  deriving DecidableEq, Repr

-- =================================== reading

/-- How far back a recent pass reads. -/
def maximumRecentHistoryPages : Nat := 4

/-- A page of the provider. -/
structure HistoryPage (Json : Type) where
  data : List Json
  lastPage : Int

/-- Why a history is not read. -/
inductive ReadError
  | request
  | invalidLastPage
  deriving DecidableEq, Repr

/-- The variables of getDonations; no maximum is 0. -/
structure Reading where
  occurredAfter : Option GoTime
  maximumPages : Nat
  history : History := {}
  pageNumber : Nat := 1
  deriving DecidableEq, Repr

/-- `!donation.OccurredAt.After(*occurredAfter)` does not skip it. -/
def wanted (occurredAfter : Option GoTime) (donation : Donation) : Bool :=
  match occurredAfter with
  | none => true
  | some time => time < donation.occurredAt

/-- A row is kept, reported, or too old. -/
def History.row (occurredAfter : Option GoTime) (history : History)
    (body : Json) : History :=
  match decodeDonation codec body with
  | .error error =>
      { history with
        rejected := history.rejected
          ++ [{ sourceDonationID := rejectedDonationID codec body, error }] }
  | .ok donation =>
      if wanted occurredAfter donation then
        { history with donations := history.donations ++ [donation] }
      else history

/-- A reading goes on, has come to its end, or fails. -/
inductive Progress
  | next (reading : Reading)
  | done (history : History)
  | failed (error : ReadError)
  deriving DecidableEq, Repr

/-- The page that was asked for. -/
def Reading.page (r : Reading) (page : HistoryPage Json) : Progress :=
  if page.lastPage ≤ 0 then .failed .invalidLastPage
  else
    let history := page.data.foldl (History.row codec r.occurredAfter)
      r.history
    if page.data.length = 0 ∨ page.lastPage ≤ r.pageNumber
        ∨ (0 < r.maximumPages ∧ r.maximumPages ≤ r.pageNumber) then
      .done history
    else .next { r with history, pageNumber := r.pageNumber + 1 }

/-- GetDonations, and where a time is given GetDonationsAfter. -/
def getDonations (occurredAfter : Option GoTime) : Reading :=
  match occurredAfter with
  | none => { occurredAfter := none, maximumPages := 0 }
  | some time =>
      { occurredAfter := some time
        maximumPages := maximumRecentHistoryPages }

/-- The donation that donationAlertsDonations makes of one. -/
def Donation.toBatch (donation : Donation) : Donations.Donation :=
  { sourceDonationID := donation.sourceDonationID
    author := donation.author
    message := donation.message
    amount := columnAmount donation.amount
    currency := donation.currency
    occurredAt := donation.occurredAt }

/-- What DonationAlertsAdapter.GetDonations hands on. -/
def History.toBatch (history : History) : Donations.DonationBatch :=
  { donations := history.donations.map Donation.toBatch
    checkpoint := none }

-- ==================================== passes

/-- Who reads a history: a user who connects, or a history job, with the
connection it had when it began to read. A job of a recent pass has a
time. -/
inductive Owner
  | connect (userID : UserID) (connection : ProviderConnection)
  | job (jobID : Nat) (connection : Connection)
      (occurredAfter : Option GoTime)

/-- Whose donations are read. -/
def Owner.userID : Owner → UserID
  | .connect userID _ => userID
  | .job _ connection _ => connection.userID

/-- The account whose history is read. -/
def Owner.account : Owner → String
  | .connect _ connection => connection.sourceUserID
  | .job _ connection _ => connection.sourceUserID

/-- The time of a recent pass. -/
def Owner.occurredAfter : Owner → Option GoTime
  | .connect _ _ => none
  | .job _ _ occurredAfter => occurredAfter

/-- A call of GetDonations by its owner; `began` are the rows that were
listed when it was called. -/
structure Pass (Json : Type) where
  owner : Owner
  began : List Json
  progress : Progress

/-- The integrations, the histories of accounts, and the passes. -/
structure System (Json : Type) where
  app : Donations.State
  history : String → List Json
  passes : Nat → Option (Pass Json)

/-- Empty histories, and no passes. -/
def System.init (Json : Type) : System Json where
  app := .init
  history := fun _ => []
  passes := fun _ => none

/-- Donations that come in, and the steps of passes and of everyone else. -/
inductive Action (Json : Type)
  | publish (account : String) (index : Nat) (body : Json)
  | connect (passID : Nat) (userID : UserID)
      (connection : ProviderConnection)
  | recover (passID jobID : Nat) (occurredAfter : Option GoTime)
  | page (passID : Nat)
  | fail (passID : Nat)
  | abandon (passID : Nat)
  | save (passID : Nat) (time : Time) (draws : List DonationDraw)
  | task (a : Donations.Action)

namespace System

/-- A pass begins, goes on, or is over. -/
def set (passID : Nat) (pass : Option (Pass Json)) (s : System Json) :
    System Json :=
  { s with passes := Function.update s.passes passID pass }

/-- A pass begins with the history as it is. -/
def start (passID : Nat) (owner : Owner) (s : System Json) : System Json :=
  s.set passID (some
    { owner
      began := s.history owner.account
      progress := .next (getDonations owner.occurredAfter) })

/-- The answer of the provider to a request; an empty list has one page. -/
def answer (perPage : ℕ+) (rows : List Json) (pageNumber : Nat) :
    HistoryPage Json :=
  { data := Pages.page rows perPage (pageNumber - 1)
    lastPage := (max (Pages.count rows.length perPage) 1 : Nat) }

/-- A request of a pass and its page. -/
def page (perPage : ℕ+) (passID : Nat) (s : System Json) : System Json :=
  match s.passes passID with
  | some { owner, began, progress := .next r } =>
      s.set passID (some
        { owner
          began
          progress := r.page codec
            (answer perPage (s.history owner.account) r.pageNumber) })
  | _ => s

/-- A request that fails. -/
def fail (passID : Nat) (s : System Json) : System Json :=
  match s.passes passID with
  | some { owner, began, progress := .next _ } =>
      s.set passID (some { owner, began, progress := .failed .request })
  | _ => s

/-- The call that a pass which has come to its end makes: a job as long
as it is there with the connection it began with. -/
def saving (time : Time) (draws : List DonationDraw) (s : System Json)
    (owner : Owner) (history : History) : Option Donations.Action :=
  match owner with
  | .connect userID connection =>
      some (.store (.saveConnectionWithDonations .donationAlerts userID
        connection history.toBatch time draws))
  | .job jobID connection _ =>
      if (s.app.jobs.get? jobID).map (fun job => (job.provider,
          job.connection)) = some (.donationAlerts, connection) then
        some (.syncHistory jobID (.ok history.toBatch) time draws)
      else none

/-- A pass that has come to its end makes its call. -/
def save (passID : Nat) (time : Time) (draws : List DonationDraw)
    (s : System Json) : System Json :=
  match s.passes passID with
  | some { owner, began := _, progress := .done history } =>
      match s.saving time draws owner history with
      | some a =>
          { s.set passID none with app := Donations.step s.app a }
      | none => s.set passID none
  | _ => s

/-- The call of a pass commits. -/
def Commits (time : Time) (draws : List DonationDraw) (s : System Json)
    (owner : Owner) (history : History) : Prop :=
  match owner with
  | .connect userID connection =>
      (Donations.saveConnectionWithDonations .donationAlerts userID
        connection history.toBatch time draws s.app.db).1 = .ok ()
  | .job jobID connection _ =>
      (s.app.jobs.get? jobID).map (fun job => (job.provider,
          job.connection)) = some (.donationAlerts, connection)
        ∧ (Donations.saveDonations .donationAlerts connection.version
          history.toBatch .recovery time draws s.app.db).1 = .ok ()

/-- One step of the system. -/
def step (perPage : ℕ+) (s : System Json) : Action Json → System Json
  | .publish account index body =>
      { s with
        history := Function.update s.history account
          ((s.history account).insertIdx index body) }
  | .connect passID userID connection =>
      s.start passID (.connect userID connection)
  | .recover passID jobID occurredAfter =>
      match s.app.jobs.get? jobID with
      | none => s
      | some job =>
          if job.provider = .donationAlerts then
            s.start passID (.job jobID job.connection occurredAfter)
          else s
  | .page passID => s.page codec perPage passID
  | .fail passID => s.fail passID
  | .abandon passID => s.set passID none
  | .save passID time draws => s.save passID time draws
  | .task a => { s with app := Donations.step s.app a }

end System

end StreamBrew.DonationAlerts.Client
