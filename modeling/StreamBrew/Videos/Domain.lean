/-
The vocabulary of video queues: the domains and tables of schema.sql
that a video passes through, and the money arithmetic of the two
programs that write to them.

# Two roundings

The web server changes the currency of a queue with the arithmetic of
the database (`converted`): a numeric quotient, rounded to the scale
the database chooses for it, then to two decimals. The worker converts
the amount of a donation with integers (`convertWithDefaultRate`), and
rounds once.

# Columns left out

Of the user's columns only the queue currency concerns videos; the slug
and the settings of the public page are left out. The provider of a
video is always YouTube. The proof of `Video` holds the table's checks,
so a row that breaks one cannot be written down.
-/
import StreamBrew.Lib.Numeric
import StreamBrew.Alert.Domain

namespace StreamBrew.Videos

open Alert (UserID DonationID Time)

-- =================================== domains

/-- `video_id`, drawn from a sequence. -/
abbrev VideoID := Nat
/-- `video_queue_id`, likewise. -/
abbrev VideoQueueID := Nat
/-- `video_priority_id`, likewise. -/
abbrev VideoPriorityID := Nat

/-- The largest value of an `integer` column. -/
def integerMax : Nat := 2147483647

theorem integerMax_nonneg : 0 ≤ integerMax := by decide

/-- The domain `nonnegative_int`. -/
abbrev NonnegativeInt := { n : Nat // n ≤ integerMax }

/-- The domain `positive_int`. -/
abbrev PositiveInt := { n : Nat // 0 < n ∧ n ≤ integerMax }

/-- A cast to `positive_int`. -/
def PositiveInt.ofInt? (n : Int) : Option PositiveInt :=
  if h : 0 < n.toNat ∧ n.toNat ≤ integerMax then some ⟨n.toNat, h⟩ else none

/-- The cents that the domain `money_amount` stays below. -/
def moneyLimit : Nat := 10 ^ 20

theorem moneyLimit_pos : 0 < moneyLimit := by decide

/-- The domain `money_amount`, `numeric(20, 2)` and not negative, in
cents. -/
abbrev Money := { cents : Nat // cents < moneyLimit }

/-- No text value contains a NUL character. -/
def Storable (text : String) : Prop := (Char.ofNat 0) ∉ text.toList

instance (text : String) : Decidable (Storable text) :=
  inferInstanceAs (Decidable (_ ∉ _))

/-- A label that the label checks accept. -/
abbrev Label :=
  { text : String // 1 ≤ (Alert.trim text).length
    ∧ (Alert.trim text).length ≤ 64 }

-- ==================================== errors

/-- How the priority trigger fails. -/
inductive TriggerError
  | queueOwner
  | priorityOwner
  | divisionByZero
  | noVideoPriority
  deriving DecidableEq, Repr

/-- The checks of the tables that a write can break. -/
inductive Constraint
  | videoQueueNotNull
  | videoCheck
  | videoCheck1
  | videoTitleCheck
  | videoPriorityCheck
  | metadataJobLastErrorCodeCheck
  | metadataJobLastHTTPStatusCheck
  deriving DecidableEq, Repr

/-- The errors that the API names. -/
inductive VideoQueueErrorType
  | invalidYoutubeURL
  | invalidVideoTiming
  | videoNotFound
  | videoQueueNotFound
  | videoQueueNameTaken
  | videoPriorityNotFound
  | videoPriorityLabelTaken
  | invalidVideoPriorityThreshold
  deriving DecidableEq, Repr

/-- How a statement or a call fails. -/
inductive StoreError
  | trigger (error : TriggerError)
  | check (constraint : Constraint)
  /-- A text with a NUL character. -/
  | encoding
  | divisionByZero
  /-- A value outside its domain. -/
  | outOfRange
  | duplicateKey
  /-- A row that is read or referred to is not there. -/
  | missingRow
  | leaseLost
  /-- The amount of a donation cannot be converted. -/
  | conversion
  | queue (type : VideoQueueErrorType)
  deriving DecidableEq, Repr

-- ===================================== money

namespace Money

/-- No money. -/
def zero : Money := ⟨0, moneyLimit_pos⟩

/-- `0.01`. -/
def cent : Money := ⟨1, by decide⟩

/-- The amount in whole units. -/
def numeric (amount : Money) : Numeric := ⟨amount.1, 2⟩

/-- Assignment to a `money_amount` column. -/
def ofNumeric? (x : Numeric) : Option Money :=
  let cents := (x.round 2).units
  if h : 0 ≤ cents ∧ cents.toNat < moneyLimit then some ⟨cents.toNat, h.2⟩
  else none

end Money

/-- The currencies that a queue may have. -/
inductive QueueCurrency
  | rub
  | usd
  | eur
  deriving DecidableEq, Repr

/-- `rublesPerUnit`, the same table in both programs. -/
def QueueCurrency.rublesPerUnit : QueueCurrency → Nat
  | .rub => 1
  | .usd => 90
  | .eur => 100

/-- The code that stands in the database. -/
def QueueCurrency.code : QueueCurrency → String
  | .rub => "RUB"
  | .usd => "USD"
  | .eur => "EUR"

/-- A factor as a numerator and a denominator. -/
structure Factor where
  numerator : Nat
  denominator : Nat
  deriving DecidableEq, Repr

/-- The factor of a currency change; the rate counts smaller units in
one larger unit. -/
def conversionFactorForCurrencyChange (source target : QueueCurrency)
    (rate : Money) : Factor :=
  if target.rublesPerUnit < source.rublesPerUnit then
    { numerator := rate.1, denominator := 100 }
  else { numerator := 100, denominator := rate.1 }

/-- `round(amount * numerator / denominator, 2)`; nothing where the
database raises a division by zero. -/
def converted (amount : Money) (factor : Factor) : Option Numeric :=
  ((amount.numeric.mul (.ofInt factor.numerator)).div?
    (.ofInt factor.denominator)).map fun q => q.round 2

/-- The table of the worker, by currency code. -/
def rublesPerUnit (currency : String) : Option Nat :=
  ([QueueCurrency.rub, .usd, .eur].find? fun c => c.code = currency).map
    QueueCurrency.rublesPerUnit

/-- A quotient rounded to the nearest number, the half up. -/
def roundDiv (numerator denominator : Nat) : Nat :=
  (numerator + denominator / 2) / denominator

/-- Drop the zeros at the end of a fraction of the given number of
digits; what is left, and its scale. -/
def trimFraction : Nat → Nat → Nat × Nat
  | 0, units => (units, 1)
  | digits + 1, units =>
      if units % 10 = 0 then trimFraction digits (units / 10)
      else (units, 10 ^ (digits + 1))

/-- The units of 10⁻¹⁸ that the domain `donation_amount` stays below:
20 digits before the point. -/
def donationAmountLimit : Nat := 10 ^ 38

/-- The stored amount of a donation, in units of 10⁻¹⁸, as units and a
scale. -/
def parseDonationUnits (amount : Nat) : Option (Nat × Nat) :=
  if amount < donationAmountLimit then some (trimFraction 18 amount)
  else none

/-- An amount in cents; nothing where it has more than 18 digits before
the point. -/
def Money.ofCents? (cents : Nat) : Option Money :=
  if h : cents < moneyLimit then some ⟨cents, h⟩ else none

/-- No amount where a currency is unsupported or the result is out of
range; an error where the amount is no donation amount. -/
def convertWithDefaultRate (amount : Nat) (sourceCurrency : String)
    (targetCurrency : QueueCurrency) : Except StoreError (Option Money) :=
  match rublesPerUnit sourceCurrency with
  | none => .ok none
  | some sourceRate =>
      match parseDonationUnits amount with
      | none => .error .conversion
      | some (units, scale) => .ok (Money.ofCents?
          (roundDiv (units * sourceRate * 100)
            (scale * targetCurrency.rublesPerUnit)))

-- =================================== records

/-- A row of `user`, as far as queues need it. -/
structure User where
  userID : UserID
  authUserID : String
  queueCurrency : QueueCurrency := .rub
  deriving DecidableEq, Repr

/-- A row of `video_queue`. -/
structure VideoQueue where
  videoQueueID : VideoQueueID
  userID : UserID
  label : Label
  isDefault : Bool := false
  deriving DecidableEq, Repr

/-- A threshold; the default priority is the one at zero. -/
structure VideoPriority where
  videoPriorityID : VideoPriorityID
  userID : UserID
  label : Label
  minPricePerMinute : Money
  isDefault : Bool := false
  check : isDefault = true ↔ minPricePerMinute.1 = 0
  deriving DecidableEq, Repr

/-- A donation, and when its message was scanned. -/
structure Donation extends Alert.Donation where
  videosParsedAt : Option Time := none
  deriving DecidableEq, Repr

/-- The column values of a video, before the table accepts them. -/
structure VideoValues where
  videoID : VideoID
  donationID : Option DonationID := none
  userID : Option UserID := none
  addedAt : Option Time := none
  providerVideoID : String
  url : String
  queueAmount : Option Money
  startSeconds : NonnegativeInt
  endSeconds : Option PositiveInt
  durationSeconds : Option PositiveInt := none
  watchedAt : Option Time := none
  bookmarkedAt : Option Time := none
  videoPriorityID : Option VideoPriorityID := none
  title : Option String := none
  videoQueueID : Option VideoQueueID := none
  deriving DecidableEq, Repr

namespace VideoValues

/-- `video_check`: a video comes from a donation or from its owner. -/
def Sourced (v : VideoValues) : Prop :=
  (v.donationID.isSome ∧ v.userID.isNone ∧ v.addedAt.isNone)
    ∨ (v.donationID.isNone ∧ v.userID.isSome ∧ v.addedAt.isSome)

instance (v : VideoValues) : Decidable v.Sourced :=
  inferInstanceAs (Decidable (_ ∨ _))

/-- `video_check1`: the end, where there is one, is after the start. -/
def Timed (v : VideoValues) : Prop :=
  ∀ e ∈ v.endSeconds, v.startSeconds.1 < e.1

instance (v : VideoValues) : Decidable v.Timed :=
  match h : v.endSeconds with
  | none => isTrue fun e he => by rw [h] at he; cases he
  | some e => decidable_of_iff (v.startSeconds.1 < e.1) (by simp [Timed, h])

/-- `video_title_check`. -/
def Titled (v : VideoValues) : Prop :=
  ∀ title ∈ v.title, Alert.trim title ≠ ""

instance (v : VideoValues) : Decidable v.Titled :=
  match h : v.title with
  | none => isTrue fun t ht => by rw [h] at ht; cases ht
  | some t => decidable_of_iff (Alert.trim t ≠ "") (by simp [Titled, h])

/-- The texts of the row can be stored. -/
def Encoded (v : VideoValues) : Prop :=
  Storable v.providerVideoID ∧ Storable v.url
    ∧ Storable (v.title.getD "")

instance (v : VideoValues) : Decidable v.Encoded :=
  inferInstanceAs (Decidable (_ ∧ _))

/-- The row belongs to no priority: it has no amount or no end, or its
segment starts after the video is over. -/
def Unranked (v : VideoValues) : Prop :=
  v.queueAmount.isNone ∨ v.endSeconds.isNone
    ∨ ∃ d ∈ v.durationSeconds, d.1 ≤ v.startSeconds.1

instance (v : VideoValues) : Decidable v.Unranked :=
  match h : v.durationSeconds with
  | none => decidable_of_iff (v.queueAmount.isNone ∨ v.endSeconds.isNone)
      (by simp [Unranked, h])
  | some d => decidable_of_iff (v.queueAmount.isNone ∨ v.endSeconds.isNone
      ∨ d.1 ≤ v.startSeconds.1) (by simp [Unranked, h])

end VideoValues

/-- A row of the video table. -/
structure Video extends VideoValues where
  encoded : toVideoValues.Encoded
  queued : toVideoValues.videoQueueID.isSome
  sourced : toVideoValues.Sourced
  timed : toVideoValues.Timed
  titled : toVideoValues.Titled
  deriving DecidableEq, Repr

/-- The checks of the table, in the order the database makes them. -/
def VideoValues.check (v : VideoValues) : Except StoreError Video :=
  if he : v.Encoded then
    if hq : v.videoQueueID.isSome then
      if hs : v.Sourced then
        if ht : v.Timed then
          if hn : v.Titled then .ok ⟨v, he, hq, hs, ht, hn⟩
          else .error (.check .videoTitleCheck)
        else .error (.check .videoCheck1)
      else .error (.check .videoCheck)
    else .error (.check .videoQueueNotNull)
  else .error .encoding

/-- A new job is neither leased nor completed. -/
theorem unleased :
    (none : Option Time).isNone ∨ (none : Option Time).isNone :=
  Or.inl rfl

/-- The scan of a donation message. -/
structure VideoScan where
  donationID : DonationID
  generation : Nat := 0
  attempts : NonnegativeInt := ⟨0, integerMax_nonneg⟩
  availableAt : Time
  leaseExpiresAt : Option Time := none
  completedAt : Option Time := none
  lastError : Option String := none
  check : completedAt.isNone ∨ leaseExpiresAt.isNone
  deriving DecidableEq, Repr

/-- The lookup of a video's duration and title. -/
structure MetadataJob where
  videoID : VideoID
  generation : Nat := 0
  attempts : NonnegativeInt := ⟨0, integerMax_nonneg⟩
  availableAt : Time
  leaseExpiresAt : Option Time := none
  completedAt : Option Time := none
  lastAttemptAt : Option Time := none
  lastErrorCode : Option String := none
  lastHTTPStatus : Option Int := none
  check : completedAt.isNone ∨ leaseExpiresAt.isNone
  deriving DecidableEq, Repr

end StreamBrew.Videos
