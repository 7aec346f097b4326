/-
The vocabulary of donation ingestion: what a provider delivers, and the
saved connections it is delivered for.

# Times

A provider's times are Go times, in nanoseconds. The database driver
sends them truncated to microseconds (`sent`), and a `js_date` column
rounds those; the order of a batch is the order of the Go times.

# Columns left out

`source_created_at` is stored and read back by the donation list only,
and `updated_at` by nothing, so neither is kept here. The tables of the
three providers with saved credentials are one table of rows that name
their provider.
-/
import StreamBrew.Alert.Queue

namespace StreamBrew.Donations

open Alert (UserID DonationID Time Source second jsDate)

/-- Nanoseconds. -/
abbrev GoTime := Int

/-- A time as the driver sends it. -/
def sent (t : GoTime) : Time := t / 1000

/-- `time.Time{}`, the beginning of the year 1. -/
def zeroTime : Time := -62135596800 * second

/-- The largest value of an `integer` column; counting past it is an
error, not a wrap. -/
def integerMax : Nat := 2147483647

/-- The sources `forSource` serves. The other two have their dedicated
stores. -/
inductive Provider
  | donationAlerts
  | streamlabs
  | streamElements
  deriving DecidableEq, Repr

/-- The source that donations of a provider have. -/
def Provider.source : Provider → Source
  | .donationAlerts => .donationAlerts
  | .streamlabs => .streamlabs
  | .streamElements => .streamElements

/-- How a donation reaches the service. -/
inductive IngestionOrigin
  | initialHistory
  | live
  | recovery
  deriving DecidableEq, Repr

/-- The status column of `streamelements_connection`. -/
inductive ConnectionStatus
  | connected
  | reauthorizationRequired
  | error
  deriving DecidableEq, Repr

/-- The tokens of an account. -/
structure Tokens where
  accessToken : String
  refreshToken : String
  deriving DecidableEq, Repr

/-- The account that a user has authorized. -/
structure ProviderConnection extends Tokens where
  sourceUserID : String
  deriving DecidableEq, Repr

/-- A delivered donation. The amount is the value that its text has in
the domain `donation_amount`, in units of 10⁻¹⁸, or nothing where the
text has none there. -/
structure Donation where
  sourceDonationID : String
  author : Option String
  message : Option String
  amount : Option Nat
  currency : String
  occurredAt : GoTime
  deriving DecidableEq, Repr

/-- Donations that are saved together, and where the next reading stops. -/
structure DonationBatch where
  donations : List Donation
  checkpoint : Option String := none
  deriving DecidableEq, Repr

/-- The saved connection generation that a caller read. -/
structure ConnectionVersion where
  userID : UserID
  sourceUserID : String
  connectedAt : Time
  tokenVersion : Nat
  deriving DecidableEq, Repr

/-- A saved connection, as the application reads it. -/
structure Connection where
  userID : UserID
  sourceUserID : String
  connectedAt : Time
  accessToken : String
  refreshToken : String
  tokenVersion : Nat
  historyCheckpoint : Option String
  deriving DecidableEq, Repr

/-- What a conditional write compares. -/
def Connection.version (connection : Connection) : ConnectionVersion where
  userID := connection.userID
  sourceUserID := connection.sourceUserID
  connectedAt := connection.connectedAt
  tokenVersion := connection.tokenVersion

/-- A row of a provider's connection table. Only StreamElements has a
status column; elsewhere a saved connection is connected. -/
structure ConnectionRow extends Connection where
  provider : Provider
  status : ConnectionStatus := .connected
  deriving DecidableEq, Repr

/-- `PRIMARY KEY (user_id)` of the provider's table. -/
def ConnectionRow.key (r : ConnectionRow) : Provider × UserID :=
  (r.provider, r.userID)

/-- A row of `donate_stream_connection`. -/
structure DonateStreamConnection where
  userID : UserID
  widgetGroupUID : String
  widgetToken : String
  deriving DecidableEq, Repr

/-- A row of `tourniquet_connection`. -/
structure TourniquetConnection where
  userID : UserID
  widgetToken : String
  deriving DecidableEq, Repr

-- ==================================== checks

/-- `^[A-Z0-9][-A-Z0-9 ._()/+]{0,31}$`, the domain `donation_asset`. -/
def validAsset (currency : String) : Bool :=
  let upper (c : Char) : Bool := ('A' ≤ c ∧ c ≤ 'Z') ∨ ('0' ≤ c ∧ c ≤ '9')
  match currency.toList with
  | [] => false
  | first :: rest => upper first ∧ rest.length ≤ 31
      ∧ rest.all fun c => upper c ∨ "- ._()/+".toList.contains c

/-- `^[A-Za-z0-9]{16,200}$`, the check on a Tourniquet token. -/
def validWidgetToken (token : String) : Bool :=
  16 ≤ token.toList.length ∧ token.toList.length ≤ 200
    ∧ token.toList.all fun c => ('A' ≤ c ∧ c ≤ 'Z')
      ∨ ('a' ≤ c ∧ c ≤ 'z') ∨ ('0' ≤ c ∧ c ≤ '9')

/-- The row a delivered donation is stored as, where its values are in
the domains of their columns. -/
def Donation.row (donation : Donation) (source : Source)
    (userID : UserID) (donationID : DonationID) :
    Option Alert.Donation :=
  donation.amount.bind fun amount =>
    if validAsset donation.currency then some
      { donationID, source, userID, amount
        sourceDonationID := donation.sourceDonationID
        author := donation.author
        message := donation.message
        currency := donation.currency
        occurredAt := jsDate (sent donation.occurredAt) }
    else none

end StreamBrew.Donations
