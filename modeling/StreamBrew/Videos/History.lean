/-
The currency history of an amount, read off the log of commits.

This is what a currency change is for, apart from how the programs do
it: a user has a currency, which each change replaces; and an amount,
once it is there, goes through each later change of its user's currency,
once and in their order (`through`). `AmountHistory` says that an amount
is what its history makes of it.
-/
import StreamBrew.Videos.System

namespace StreamBrew.Videos

open Relational
open Alert (UserID Time)

/-- What has been committed. -/
abbrev Commit := Sessions.Commit Db Call Txn

/-- What ran a statement or committed. -/
abbrev Source := Call ⊕ Txn

/-- The currency change that a commit makes for a user. -/
def changeOf (userID : UserID) : Source → Option CurrencyChange
  | .inr (.setQueueCurrency change _) =>
      if change.userID = userID then some change else none
  | _ => none

/-- The changes of a user's currency, in order. -/
def changes (userID : UserID) (log : List Commit) : List CurrencyChange :=
  log.filterMap fun c => changeOf userID c.source

/-- A currency, and an amount in it, after a change; a change to the
same currency does nothing. -/
def CurrencyChange.apply (p : QueueCurrency × Option Money)
    (change : CurrencyChange) : QueueCurrency × Option Money :=
  (change.queueCurrency,
    if p.1 = change.queueCurrency then p.2
    else p.2.bind fun amount =>
      (convertAmount (change.factor p.1) amount).toOption)

/-- A currency, and an amount in it, after some changes. -/
def through (p : QueueCurrency × Option Money)
    (changes : List CurrencyChange) : QueueCurrency × Option Money :=
  changes.foldl CurrencyChange.apply p

/-- The currency of a user: rubles, or what the last change made it. -/
def currencyOf (userID : UserID) (log : List Commit) : QueueCurrency :=
  (through (.rub, none) (changes userID log)).1

/-- The amount that an insert gives a video: its owner's, or that of the
donation in the currency at the time. -/
inductive Inserted (currency : QueueCurrency) : Source → Option Money → Prop
  | added {userID : UserID} {url : String} {providerVideoID : Option String}
      {details : VideoDetails} {queueID : Option VideoQueueID} {now : Time}
      {videoID : VideoID} :
      Inserted currency (.inl (.addManualVideo userID url providerVideoID
        details queueID now videoID)) (some details.amount)
  | scanned {completion : Completion} {stage : CompleteStage}
      {amount : Option Money}
      (h : convertWithDefaultRate completion.job.amount
        completion.job.currency currency = .ok amount) :
      Inserted currency (.inr (.complete completion stage)) amount

/-- The owner has not edited the video. -/
def Unedited (log : List Commit) (videoID : VideoID) : Prop :=
  ∀ c ∈ log, ∀ userID details,
    c.source ≠ .inl (.updateVideo userID videoID details)

/-- The amount of a video is the inserted one after all later changes. -/
def AmountHistory (userID : UserID) (log : List Commit) (v : Video) : Prop :=
  ∃ before c after, log = before ++ c :: after
    ∧ ∃ amount, Inserted (currencyOf userID before) c.source amount
      ∧ (∃ v₀ ∈ c.written.videos, v₀.videoID = v.videoID
        ∧ v₀.queueAmount = amount)
      ∧ through (currencyOf userID before, amount) (changes userID after)
        = (currencyOf userID log, v.queueAmount)
      ∧ (amount.isSome → v.queueAmount.isSome)

-- ===================================== facts

theorem through_snoc (p : QueueCurrency × Option Money)
    (l : List CurrencyChange) (change : CurrencyChange) :
    through p (l ++ [change]) = change.apply (through p l) := by
  unfold through
  rw [List.foldl_append]
  rfl

theorem changes_snoc (userID : UserID) (log : List Commit) (c : Commit) :
    changes userID (log ++ [c])
      = changes userID log ++ (changeOf userID c.source).toList := by
  unfold changes
  rw [List.filterMap_append]
  cases h : changeOf userID c.source with
  | none => simp [h]
  | some change => simp [h]

theorem currencyOf_snoc_none {userID : UserID} {log : List Commit}
    {c : Commit} (h : changeOf userID c.source = none) :
    currencyOf userID (log ++ [c]) = currencyOf userID log := by
  unfold currencyOf
  rw [changes_snoc, h]
  simp

theorem currencyOf_snoc_some {userID : UserID} {log : List Commit}
    {c : Commit} {change : CurrencyChange}
    (h : changeOf userID c.source = some change) :
    currencyOf userID (log ++ [c]) = change.queueCurrency := by
  unfold currencyOf
  rw [changes_snoc, h, Option.toList_some, through_snoc]
  rfl

theorem changeOf_eq_some {userID : UserID} {source : Source}
    {change : CurrencyChange} (h : changeOf userID source = some change) :
    change.userID = userID
      ∧ ∃ stage, source = .inr (.setQueueCurrency change stage) := by
  unfold changeOf at h
  split at h
  case h_1 change' stage =>
    split at h
    case isTrue hid =>
      cases h
      exact ⟨hid, stage, rfl⟩
    case isFalse => cases h
  case h_2 => cases h

theorem changeOf_self (change : CurrencyChange) (stage : CurrencyStage) :
    changeOf change.userID (.inr (.setQueueCurrency change stage))
      = some change := if_pos rfl

theorem Inserted.changeOf {currency : QueueCurrency} {source : Source}
    {amount : Option Money} (h : Inserted currency source amount)
    (userID : UserID) : changeOf userID source = none := by
  cases h with
  | added => rfl
  | scanned => rfl

namespace AmountHistory

variable {userID : UserID} {log : List Commit} {v v' : Video} {c : Commit}

/-- The history begins with the insert. -/
theorem insert {amount : Option Money}
    (h : Inserted (currencyOf userID log) c.source amount)
    (hv : v ∈ c.written.videos) (hamount : v.queueAmount = amount) :
    AmountHistory userID (log ++ [c]) v := by
  refine ⟨log, c, [], rfl, amount, h, ⟨v, hv, rfl, hamount⟩, ?_, ?_⟩
  · rw [currencyOf_snoc_none (h.changeOf userID), hamount]
    rfl
  · rw [hamount]
    exact id

/-- A commit that changes neither the amount nor the currency. -/
theorem keep (h : AmountHistory userID log v)
    (hchange : Videos.changeOf userID c.source = none)
    (hid : v'.videoID = v.videoID)
    (hamount : v'.queueAmount = v.queueAmount) :
    AmountHistory userID (log ++ [c]) v' := by
  obtain ⟨before, c₀, after, rfl, amount, hinserted, hrow, hthrough, hsome⟩ :=
    h
  refine ⟨before, c₀, after ++ [c], by simp, amount, hinserted, ?_, ?_, ?_⟩
  · rw [hid]
    exact hrow
  · rw [changes_snoc, hchange, currencyOf_snoc_none hchange, hamount]
    simpa using hthrough
  · rw [hamount]
    exact hsome

/-- A commit that changes the currency, and the amount with it. -/
theorem change {change : CurrencyChange}
    (h : AmountHistory userID log v)
    (hchange : Videos.changeOf userID c.source = some change)
    (hid : v'.videoID = v.videoID)
    (hamount : change.apply (currencyOf userID log, v.queueAmount)
      = (change.queueCurrency, v'.queueAmount))
    (hkeeps : v.queueAmount.isSome → v'.queueAmount.isSome) :
    AmountHistory userID (log ++ [c]) v' := by
  obtain ⟨before, c₀, after, rfl, amount, hinserted, hrow, hthrough, hsome⟩ :=
    h
  refine ⟨before, c₀, after ++ [c], by simp, amount, hinserted, ?_, ?_, ?_⟩
  · rw [hid]
    exact hrow
  · rw [changes_snoc, hchange, currencyOf_snoc_some hchange,
      Option.toList_some, through_snoc, hthrough, hamount]
  · exact fun hs => hkeeps (hsome hs)

end AmountHistory

end StreamBrew.Videos
