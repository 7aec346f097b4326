/-
What a traversal of a StreamElements history gives: its donations, its
rejected tips and its checkpoint.

A page is taken tip by tip, whatever they decode to (`foldl_tip`); the
checkpoint is decided before, by the first tip of the first page.
-/
import StreamBrew.StreamElements.Client

namespace StreamBrew.StreamElements

open Alert (Time)
open Donations (GoTime)

variable {Json : Type} {codec : TipCodec Json}
  {parseTime : String → Option Time}

-- ====================================== tips

/-- A valid tip has the id that it is named by, and has one. -/
theorem decodeTip_eq_some {channelID : String} {body : Json} {d : Donation}
    (h : decodeTip codec parseTime channelID body = some d) :
    d.sourceDonationID = tipID codec body ∧ tipID codec body ≠ "" := by
  unfold decodeTip at h
  obtain ⟨raw, hraw, hd⟩ := Option.bind_eq_some_iff.mp h
  have hid : tipID codec body = raw.id := by
    unfold tipID
    rw [codec.tip_identity body raw hraw]
    rfl
  unfold RawTip.donation at hd
  split at hd
  case isTrue => cases hd
  case isFalse hvalid =>
    simp only at hd
    split at hd
    case isTrue => cases hd
    case isFalse =>
      obtain ⟨amount, -, hd⟩ := Option.bind_eq_some_iff.mp hd
      obtain ⟨occurredAt, -, rfl⟩ := Option.map_eq_some_iff.mp hd
      exact ⟨hid.symm, fun he => hvalid (Or.inl (hid.symm.trans he))⟩

/-- The donations of the valid tips. -/
def donated (codec : TipCodec Json) (parseTime : String → Option Time)
    (channelID : String) (docs : List Json) : List Donation :=
  docs.filterMap (decodeTip codec parseTime channelID)

/-- The tips that are rejected. -/
def refused (codec : TipCodec Json) (parseTime : String → Option Time)
    (channelID : String) (docs : List Json) : List RejectedDonation :=
  (docs.filter fun body =>
    (decodeTip codec parseTime channelID body).isNone).map fun body =>
      { sourceDonationID := tipID codec body }

theorem donated_append (channelID : String) (docs more : List Json) :
    donated codec parseTime channelID (docs ++ more)
      = donated codec parseTime channelID docs
        ++ donated codec parseTime channelID more :=
  List.filterMap_append

theorem refused_append (channelID : String) (docs more : List Json) :
    refused codec parseTime channelID (docs ++ more)
      = refused codec parseTime channelID docs
        ++ refused codec parseTime channelID more := by
  unfold refused
  rw [List.filter_append, List.map_append]

/-- A page is taken tip by tip. -/
theorem foldl_tip (docs : List Json) (r : Traversal) :
    docs.foldl (Traversal.tip codec parseTime) r =
      { r with
        donations := r.donations
          ++ donated codec parseTime r.channelID docs
        rejected := r.rejected
          ++ refused codec parseTime r.channelID docs } := by
  induction docs generalizing r with
  | nil => simp only [List.foldl_nil, donated, refused, List.filterMap_nil,
      List.filter_nil, List.map_nil, List.append_nil]
  | cons body docs ih =>
      rw [List.foldl_cons, ih]
      unfold Traversal.tip
      cases hbody : decodeTip codec parseTime r.channelID body with
      | none =>
          simp only [donated, refused, List.filterMap_cons,
            List.filter_cons, hbody, Option.isNone_none, if_true,
            List.map_cons, List.append_assoc, List.singleton_append]
      | some d =>
          simp only [donated, refused, List.filterMap_cons,
            List.filter_cons, hbody, Option.isNone_some,
            Bool.false_eq_true, if_false, List.append_assoc,
            List.singleton_append]

-- ================================ traversals

/-- The newest tip of a history: the first of its first page. -/
def newest : List (Option (TipsPage Json)) → Option Json
  | some page :: _ => page.docs.head?
  | _ => none

/-- The tips that a traversal comes to, from an offset and a page number
on: those of the pages up to an empty one or to the last. -/
def docsRead (offset pageNumber : Nat) :
    List (Option (TipsPage Json)) → List Json
  | some page :: pages =>
      if page.docs = [] ∨ page.last (offset + page.docs.length) pageNumber
      then page.docs
      else page.docs
        ++ docsRead (offset + page.docs.length) (pageNumber + 1) pages
  | _ => []

/-- The checkpoint of a traversal that has this first tip. -/
def Traversal.headed (codec : TipCodec Json) (r : Traversal)
    (first : Option Json) : Option String :=
  if r.initialTraversal then
    r.newCheckpoint <|> first.map (tipID codec)
  else r.newCheckpoint

/-- The checkpoint is taken from the head of the first page. -/
theorem Traversal.checkpoint_eq_some {head : Json} {r r' : Traversal}
    (h : r.checkpoint (tipID codec head) = some r') :
    r' = { r with newCheckpoint := r.headed codec (some head) } := by
  unfold Traversal.checkpoint at h
  unfold Traversal.headed
  split at h
  case isTrue hfirst =>
    split at h
    case isTrue => cases h
    case isFalse =>
      cases h
      simp only [hfirst.1, hfirst.2, if_true, Option.map_some,
        Option.orElse_eq_orElse, Option.orElse_none]
  case isFalse hfirst =>
    cases h
    have hsame : (if r.initialTraversal then
        r.newCheckpoint <|> (some head).map (tipID codec)
        else r.newCheckpoint) = r.newCheckpoint := by
      cases hinitial : r.initialTraversal with
      | false => rfl
      | true =>
          cases hnew : r.newCheckpoint with
          | none => exact absurd ⟨hinitial, hnew⟩ hfirst
          | some c => rfl
    rw [hsame]

/-- What a traversal has come to, given the first tip that it was
offered, and the tips that it has read. -/
structure Traversal.Result (codec : TipCodec Json)
    (parseTime : String → Option Time) (r : Traversal)
    (first : Option Json) (docs : List Json) (history : TipHistory) :
    Prop where
  checkpoint : history.checkpoint = r.headed codec first
  donations : history.donations
    = r.donations ++ donated codec parseTime r.channelID docs
  rejected : history.rejected
    = r.rejected ++ refused codec parseTime r.channelID docs

/-- A traversal that ends at a page, which is empty or the last, has
taken all of it. -/
theorem Traversal.page_done {r : Traversal} {page : TipsPage Json}
    {history : TipHistory}
    (h : r.page codec parseTime page = .done history) :
    r.Result codec parseTime page.docs.head? page.docs history
      ∧ (page.docs = []
        ∨ page.last (r.offset + page.docs.length) r.pageNumber) := by
  unfold Traversal.page at h
  cases hdocs : page.docs with
  | nil =>
      simp only [hdocs] at h
      cases h
      refine ⟨⟨?_, (List.append_nil _).symm, (List.append_nil _).symm⟩,
        Or.inl rfl⟩
      show r.newCheckpoint = r.headed codec none
      unfold Traversal.headed
      cases r.newCheckpoint <;> simp
  | cons head rest =>
      simp only [hdocs] at h
      cases hcheckpoint : r.checkpoint (tipID codec head) with
      | none => simp only [hcheckpoint] at h; cases h
      | some headed =>
          have he := Traversal.checkpoint_eq_some hcheckpoint
          simp only [hcheckpoint] at h
          split at h
          case isTrue hlast =>
            cases h
            rw [foldl_tip, he] at hlast ⊢
            exact ⟨⟨rfl, rfl, rfl⟩, Or.inr hlast⟩
          case isFalse =>
            split at h
            case isTrue => cases h
            case isFalse => cases h

/-- A traversal that goes on after a page, which is neither empty nor the
last, has taken all of it. -/
theorem Traversal.page_next {r next : Traversal} {page : TipsPage Json}
    (h : r.page codec parseTime page = .next next) :
    page.docs ≠ []
      ∧ ¬ page.last (r.offset + page.docs.length) r.pageNumber
      ∧ next.channelID = r.channelID
      ∧ next.initialTraversal = r.initialTraversal
      ∧ next.newCheckpoint = r.headed codec page.docs.head?
      ∧ next.donations
        = r.donations ++ donated codec parseTime r.channelID page.docs
      ∧ next.rejected
        = r.rejected ++ refused codec parseTime r.channelID page.docs
      ∧ next.offset = r.offset + page.docs.length
      ∧ next.pageNumber = r.pageNumber + 1 := by
  unfold Traversal.page at h
  cases hdocs : page.docs with
  | nil => simp only [hdocs] at h; cases h
  | cons head rest =>
      simp only [hdocs] at h
      cases hcheckpoint : r.checkpoint (tipID codec head) with
      | none => simp only [hcheckpoint] at h; cases h
      | some headed =>
          simp only [hcheckpoint] at h
          split at h
          case isTrue => cases h
          case isFalse hlast =>
            split at h
            case isTrue => cases h
            case isFalse =>
              have he := Traversal.checkpoint_eq_some hcheckpoint
              rw [foldl_tip, he] at h hlast
              cases h
              exact ⟨List.cons_ne_nil _ _, hlast, rfl, rfl, rfl, rfl, rfl,
                rfl, rfl⟩

/-- A traversal gives the tips that it comes to, each either as a donation
or as a rejected tip. -/
theorem Traversal.run_ok {r : Traversal}
    {pages : List (Option (TipsPage Json))} {history : TipHistory}
    (h : r.run codec parseTime pages = some (.ok history)) :
    r.Result codec parseTime (newest pages)
      (docsRead r.offset r.pageNumber pages) history := by
  induction pages generalizing r with
  | nil => cases h
  | cons page pages ih =>
      cases page with
      | none => cases h
      | some page =>
          show r.Result codec parseTime page.docs.head? _ history
          unfold Traversal.run at h
          cases hpage : r.page codec parseTime page with
          | failed error => simp only [hpage] at h; cases h
          | done final =>
              simp only [hpage] at h
              cases h
              obtain ⟨hresult, hend⟩ := Traversal.page_done hpage
              unfold docsRead
              rw [if_pos hend]
              exact hresult
          | next next =>
              simp only [hpage] at h
              have hrest := ih h
              obtain ⟨hdocs, hlast, hchannel, hinitial, hnew, hdonations,
                hrejected, hoffset, hnumber⟩ := Traversal.page_next hpage
              unfold docsRead
              rw [if_neg (not_or.mpr ⟨hdocs, hlast⟩), ← hoffset, ← hnumber]
              constructor
              case checkpoint =>
                rw [hrest.checkpoint]
                unfold Traversal.headed at hnew ⊢
                rw [hinitial, hnew]
                cases he : page.docs with
                | nil => exact absurd he hdocs
                | cons head rest =>
                    cases r.initialTraversal <;>
                      cases r.newCheckpoint <;> rfl
              case donations =>
                rw [hrest.donations, hdonations, hchannel, donated_append,
                  List.append_assoc]
              case rejected =>
                rw [hrest.rejected, hrejected, hchannel, refused_append,
                  List.append_assoc]

/-- GetDonations of the client: the checkpoint of an initial traversal is
the id of the newest tip, and the donations and the rejected tips are
those of the tips read. -/
theorem getDonations_ok {channelID : String} {checkpoint : Option String}
    {occurredAfter : Option GoTime}
    {pages : List (Option (TipsPage Json))} {history : TipHistory}
    (h : getDonations codec parseTime channelID checkpoint occurredAfter
      pages = some (.ok history)) :
    history.checkpoint
        = (if checkpoint = none ∧ occurredAfter = none then
            (newest pages).map (tipID codec) else none)
      ∧ history.donations = donated codec parseTime
        (Alert.trimSpace channelID) (docsRead 0 1 pages)
      ∧ history.rejected = refused codec parseTime
        (Alert.trimSpace channelID) (docsRead 0 1 pages) := by
  unfold getDonations at h
  simp only at h
  split at h
  case isTrue => cases h
  case isFalse =>
    have hresult := Traversal.run_ok h
    refine ⟨?_, hresult.donations, hresult.rejected⟩
    rw [hresult.checkpoint]
    unfold Traversal.headed
    cases checkpoint <;> cases occurredAfter <;> rfl

end StreamBrew.StreamElements
