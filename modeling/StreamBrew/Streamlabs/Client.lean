/-
The history of a Streamlabs account: GetDonations of the client.

# Pages

The rows of a history come newest first, a hundred to a page at most. A
page is asked for by the id of the last row that was read, so rows that
arrive meanwhile do not move it. Every row is decoded on its own; one that
fails is reported, and counts for the cursor and the checkpoint like any
other. Reading stops at the row of the checkpoint it was given, or at an
empty page.

A request and its page are one step of a reading (`Reading.page`), and
what happens between two of them is the environment's. JSON is a type of
its own, and `RowCodec` says what a row decodes to.
-/
import StreamBrew.StreamElements.Client

namespace StreamBrew.Streamlabs

open StreamElements (currencyPattern donorText columnAmount)

-- ====================================== rows

/-- How many donations a page has. -/
def historyPageSize : Nat := 100
/-- The page after which a reading is given up. -/
def maximumHistoryPage : Nat := 1000

/-- A donation as the integration hands it on. -/
structure Donation where
  sourceDonationID : String
  author : Option String
  message : Option String
  amount : String
  currency : String
  sourceCreatedAt : String
  /-- in seconds -/
  occurredAt : Int
  deriving DecidableEq, Repr

/-- A row as the provider gives it. -/
structure RawDonation where
  donationID : String := ""
  createdAt : String := ""
  currency : String := ""
  amount : String := ""
  name : Option String := none
  message : Option String := none
  deriving DecidableEq, Repr

/-- `strconv.ParseInt(text, 10, 64)` -/
def parseInt (text : List Char) : Option Int :=
  let digits := match text with
    | '+' :: rest | '-' :: rest => rest
    | _ => text
  if digits = [] ∨ !digits.all Char.isDigit then none
  else if text.head? = some '-' then
    if Decimal.number digits ≤ 9223372036854775808 then
      some (-Decimal.number digits)
    else none
  else if Decimal.number digits < 9223372036854775808 then
    some (Decimal.number digits)
  else none

/-- Why a row is rejected. -/
inductive RowError
  | malformed
  | identityOrCurrency
  | amount
  | date
  deriving DecidableEq, Repr

/-- RawDonation.donation -/
def RawDonation.donation (raw : RawDonation) : Except RowError Donation :=
  if raw.donationID = "" ∨ !currencyPattern raw.currency then
    .error .identityOrCurrency
  else
    match Money.normalizeDonationAmount raw.amount.toList with
    | none => .error .amount
    | some amount =>
        match (parseInt raw.createdAt.toList).filter (0 ≤ ·) with
        | none => .error .date
        | some unixSeconds =>
            .ok
              { sourceDonationID := raw.donationID
                author := donorText raw.name
                message := donorText raw.message
                amount := String.ofList amount
                currency := raw.currency
                sourceCreatedAt := raw.createdAt
                occurredAt := unixSeconds }

/-- What the document of a row decodes to: its `donation_id` alone, and
its other fields. -/
structure RowCodec (Json : Type) where
  identity : Json → Option String
  fields : Json → Option RawDonation

/-- A row with its identifier, which decides where the reading stops. -/
structure DecodedDonation where
  id : String
  donation : Except RowError Donation

variable {Json : Type}

/-- A row whose fields are wrong may still have an identifier. -/
def decodeDonation (codec : RowCodec Json) (body : Json) : DecodedDonation :=
  match codec.identity body with
  | none => { id := "", donation := .error .malformed }
  | some id =>
      match codec.fields body with
      | none => { id, donation := .error .malformed }
      | some raw =>
          { id
            donation := ({ raw with donationID := id } : RawDonation).donation }

/-- A row that was not decoded, and why. -/
structure RejectedDonation where
  sourceDonationID : String
  error : RowError
  deriving DecidableEq, Repr

/-- What a reading hands on. -/
structure History where
  donations : List Donation
  rejected : List RejectedDonation
  checkpoint : Option String
  deriving DecidableEq, Repr

-- =================================== reading

/-- Why a history is not read. -/
inductive ReadError
  | request
  | missingDonationID
  | missingCursor
  | repeatedCursor
  | safetyLimit
  deriving DecidableEq, Repr

/-- The variables of GetDonations. -/
structure Reading where
  checkpoint : Option String
  donations : List Donation := []
  rejected : List RejectedDonation := []
  seenCursors : List String := []
  before : String := ""
  newCheckpoint : Option String := none
  pageNumber : Nat := 1
  deriving DecidableEq, Repr

/-- The rows of a reading, with the checkpoint that it found. -/
def Reading.history (checkpoint : Option String) (r : Reading) : History :=
  { donations := r.donations, rejected := r.rejected, checkpoint }

/-- A row that is not that of the checkpoint. -/
def Reading.row (row : DecodedDonation) (r : Reading) : Reading :=
  match row.donation with
  | .error error =>
      { r with
        rejected := r.rejected
          ++ [{ sourceDonationID := row.id, error }] }
  | .ok donation => { r with donations := r.donations ++ [donation] }

/-- The rows of a page up to the checkpoint, and whether it is there. -/
def Reading.rows (r : Reading) : List DecodedDonation → Reading × Bool
  | [] => (r, false)
  | row :: rest =>
      if r.checkpoint = some row.id then (r, true)
      else (r.row row).rows rest

/-- A reading goes on, has come to its end, or fails. -/
inductive Progress
  | next (reading : Reading)
  | done (history : History)
  | failed (error : ReadError)
  deriving DecidableEq, Repr

/-- The next cursor, after the rows of a page that ends with `last`. -/
def Reading.turn (last : String) (r : Reading) : Progress :=
  if last = "" then .failed .missingCursor
  else if last ∈ r.seenCursors then .failed .repeatedCursor
  else if maximumHistoryPage ≤ r.pageNumber then .failed .safetyLimit
  else
    .next { r with
      before := last
      seenCursors := last :: r.seenCursors
      pageNumber := r.pageNumber + 1 }

/-- The page that was asked for. -/
def Reading.page (r : Reading) : List DecodedDonation → Progress
  | [] => .done (r.history (r.newCheckpoint <|> r.checkpoint))
  | head :: rest =>
      if r.newCheckpoint = none ∧ head.id = "" then
        .failed .missingDonationID
      else
        let newCheckpoint := r.newCheckpoint <|> some head.id
        match ({ r with newCheckpoint } : Reading).rows (head :: rest) with
        | (r, true) => .done (r.history newCheckpoint)
        | (r, false) => r.turn ((head :: rest).getLast (by simp)).id

/-- A reading from page to page; a request may fail. Nothing, while it
waits for a page. -/
def Reading.run (codec : RowCodec Json) (r : Reading) :
    List (Option (List Json)) → Option (Except ReadError History)
  | [] => none
  | none :: _ => some (.error .request)
  | some data :: pages =>
      match r.page (data.map (decodeDonation codec)) with
      | .next r => r.run codec pages
      | .done history => some (.ok history)
      | .failed error => some (.error error)

/-- Client.GetDonations over the pages that the provider answers. -/
def getDonations (codec : RowCodec Json) (checkpoint : Option String)
    (pages : List (Option (List Json))) :
    Option (Except ReadError History) :=
  ({ checkpoint } : Reading).run codec pages

-- =================================== batches

/-- The donation that streamlabsBatch makes of one of the history. -/
def Donation.toBatch (donation : Donation) : Donations.Donation :=
  { sourceDonationID := donation.sourceDonationID
    author := donation.author
    message := donation.message
    amount := columnAmount donation.amount
    currency := donation.currency
    occurredAt := donation.occurredAt * 1000000000 }

/-- What streamlabsBatch hands on to be stored. -/
def streamlabsBatch (history : History) : Donations.DonationBatch :=
  { donations := history.donations.map Donation.toBatch
    checkpoint := history.checkpoint }

end StreamBrew.Streamlabs
