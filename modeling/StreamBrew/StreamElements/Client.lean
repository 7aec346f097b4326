/-
The history of a StreamElements channel: GetDonations of the client.

# Traversals

The tips of a history come newest first, and a page is asked for by the
number of tips before it. The range ends where the traversal began, so
tips that arrive meanwhile do not move it. Every traversal is complete;
only an initial one, without a checkpoint and without an earliest time,
gives a checkpoint. A tip that fails is reported, and counts for the
offset and the checkpoint like any other.

A request and its page are one step of a traversal (`Traversal.page`).
JSON is a type of its own, and `TipCodec` says what a tip decodes to.
-/
import StreamBrew.StreamElements.Source
import StreamBrew.Donations.Domain

namespace StreamBrew.StreamElements

open Alert (Time trimSpace)
open Donations (GoTime)

/-- How many tips a page has. -/
def historyPageSize : Nat := 100
/-- The page after which a reading is given up. -/
def maximumHistoryPage : Nat := 1000

-- ====================================== tips

/-- What the document of a tip decodes to: its `_id` alone, and all of
it. -/
structure TipCodec (Json : Type) where
  identity : Json → Option String
  tip : Json → Option RawTip
  tip_identity : ∀ body raw, tip body = some raw →
    identity body = some raw.id

/-- A tip that was not decoded, by its identifier. -/
structure RejectedDonation where
  sourceDonationID : String
  deriving DecidableEq, Repr

/-- History -/
structure TipHistory where
  donations : List Donation
  rejected : List RejectedDonation
  checkpoint : Option String
  deriving DecidableEq, Repr

/-- tipsPage -/
structure TipsPage (Json : Type) where
  docs : List Json
  total : Option Int := none
  totalDocs : Option Int := none
  totalPages : Option Int := none
  hasNextPage : Option Bool := none

/-- tipsPage.last -/
def TipsPage.last {Json : Type} (page : TipsPage Json)
    (offset pageNumber : Nat) : Bool :=
  match page.hasNextPage, page.totalDocs, page.total, page.totalPages with
  | some hasNextPage, _, _, _ => !hasNextPage
  | none, some totalDocs, _, _ => totalDocs ≤ offset
  | none, none, some total, _ => total ≤ offset
  | none, none, none, some totalPages => totalPages ≤ pageNumber
  | none, none, none, none => page.docs.length < historyPageSize

-- ================================ traversals

/-- Why a history is not read. -/
inductive ReadError
  | request
  | missingChannelID
  | missingTipID
  | safetyLimit
  deriving DecidableEq, Repr

/-- The variables of GetDonations. -/
structure Traversal where
  channelID : String
  initialTraversal : Bool
  donations : List Donation := []
  rejected : List RejectedDonation := []
  newCheckpoint : Option String := none
  offset : Nat := 0
  pageNumber : Nat := 1
  deriving DecidableEq, Repr

/-- What a reading hands on when it ends. -/
def Traversal.history (r : Traversal) : TipHistory :=
  { donations := r.donations
    rejected := r.rejected
    checkpoint := r.newCheckpoint }

/-- A traversal goes on, has come to its end, or fails. -/
inductive Progress
  | next (traversal : Traversal)
  | done (history : TipHistory)
  | failed (error : ReadError)
  deriving DecidableEq, Repr

section

variable {Json : Type} (codec : TipCodec Json)
  (parseTime : String → Option Time)

/-- The identifier of a tip, where it has one. -/
def tipID (body : Json) : String := (codec.identity body).getD ""

/-- A tip, where it is one of the channel. -/
def decodeTip (channelID : String) (body : Json) : Option Donation :=
  (codec.tip body).bind fun raw => raw.donation parseTime channelID

/-- One tip of a page. -/
def Traversal.tip (r : Traversal) (body : Json) : Traversal :=
  match decodeTip codec parseTime r.channelID body with
  | none =>
      { r with
        rejected := r.rejected
          ++ [{ sourceDonationID := tipID codec body }] }
  | some donation => { r with donations := r.donations ++ [donation] }

/-- The checkpoint of an initial traversal, from the first tip of its
first page; nothing where that has no id. -/
def Traversal.checkpoint (head : String) (r : Traversal) :
    Option Traversal :=
  if r.initialTraversal ∧ r.newCheckpoint = none then
    if head = "" then none
    else some { r with newCheckpoint := some head }
  else some r

/-- The page that was asked for. -/
def Traversal.page (r : Traversal) (page : TipsPage Json) : Progress :=
  match page.docs with
  | [] => .done r.history
  | head :: rest =>
      match r.checkpoint (tipID codec head) with
      | none => .failed .missingTipID
      | some r =>
          let r := (head :: rest).foldl (Traversal.tip codec parseTime) r
          let offset := r.offset + (head :: rest).length
          if page.last offset r.pageNumber then .done r.history
          else if maximumHistoryPage ≤ r.pageNumber then
            .failed .safetyLimit
          else .next { r with offset, pageNumber := r.pageNumber + 1 }

/-- A traversal from page to page; a request may fail. Nothing, while it
waits for a page. -/
def Traversal.run (r : Traversal) :
    List (Option (TipsPage Json)) → Option (Except ReadError TipHistory)
  | [] => none
  | none :: _ => some (.error .request)
  | some page :: pages =>
      match r.page codec parseTime page with
      | .next r => r.run pages
      | .done history => some (.ok history)
      | .failed error => some (.error error)

/-- Client.GetDonations over the pages that the provider answers. -/
def getDonations (channelID : String) (checkpoint : Option String)
    (occurredAfter : Option GoTime)
    (pages : List (Option (TipsPage Json))) :
    Option (Except ReadError TipHistory) :=
  let channelID := trimSpace channelID
  if channelID = "" then some (.error .missingChannelID)
  else
    ({ channelID
       initialTraversal := checkpoint.isNone && occurredAfter.isNone } :
      Traversal).run codec parseTime pages

end

-- =================================== batches

/-- The value of an amount in its column, in units of 10⁻¹⁸. -/
def columnAmount (amount : String) : Option Nat :=
  (Money.parseDonationUnits amount.toList).map fun (units, scale) =>
    units * (10 ^ 18 / scale)

/-- The donation that streamElementsDonations makes of one. -/
def Donation.toBatch (donation : Donation) : Donations.Donation :=
  { sourceDonationID := donation.sourceDonationID
    author := donation.author
    message := donation.message
    amount := columnAmount donation.amount
    currency := donation.currency
    occurredAt := donation.occurredAt }

/-- What the adapter hands on. -/
def streamElementsBatch (history : TipHistory) : Donations.DonationBatch :=
  { donations := history.donations.map Donation.toBatch
    checkpoint := history.checkpoint }

end StreamBrew.StreamElements
