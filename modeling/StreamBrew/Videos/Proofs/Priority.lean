/-
The priority of a video, in every run.

A row is unranked or has a priority, because each of its versions went
through the trigger or changed nothing that the trigger reads
(`reachable_good`). The trigger does not fail, because each writer gives
it a row of an owner with a queue and a default priority, and a segment
that ends after its start (`Placeable`). And an assigned priority is the
best one or was kept, which `Change` says of each way to change a row.

# Which arithmetic

The trigger compares thresholds with the quotient of the database, which
is rounded to at least sixteen significant digits. Below 10⁸ a minute
that comparison is the exact one (`Best.exact`): a threshold has two
decimals and a segment fewer than 2³¹ seconds, so one that exceeds the
exact price exceeds it by more than the rounding adds.
-/
import StreamBrew.Videos.Proofs.Steps

namespace StreamBrew.Videos

open Relational
open Alert (UserID DonationID Time)

variable {db : Db} {new : VideoValues} {videoID : VideoID} {old v : Video}
  {retain : Bool} {userID : UserID}

-- ==================================== prices

/-- The amount a minute of the segment costs; nothing where the row has
no amount or no end. -/
def exactPrice (v : VideoValues) : Option ℚ :=
  match v.queueAmount, v.endSeconds with
  | some amount, some e => some (amount.numeric.value * 60
      / (((e.1 : Int) - v.startSeconds.1 : Int) : ℚ))
  | _, _ => none

/-- The highest threshold that the exact price reaches. -/
def BestExactly (db : Db) (v : VideoValues) (id : VideoPriorityID) : Prop :=
  ∃ price ∈ exactPrice v, ∃ p ∈ db.priorities, p.videoPriorityID = id
    ∧ Owns db p.userID v
    ∧ p.minPricePerMinute.numeric.value ≤ price
    ∧ ∀ q ∈ db.priorities, q.userID = p.userID →
        q.minPricePerMinute.numeric.value ≤ price →
        q.minPricePerMinute.1 ≤ p.minPricePerMinute.1

/-- Below 10⁸ a minute, reaching a threshold in the arithmetic of the
database is reaching it. -/
theorem threshold_le_price {amount : Money} {s : NonnegativeInt}
    {e : PositiveInt} (hlt : s.1 < e.1) {price : Numeric}
    (hprice : pricePerMinute amount s e = some price)
    (hsmall : amount.numeric.value * 60
      / (((e.1 : Int) - s.1 : Int) : ℚ) < 10 ^ 8) (t : Money) :
    t.numeric ≤ price ↔ t.numeric.value
      ≤ amount.numeric.value * 60 / (((e.1 : Int) - s.1 : Int) : ℚ) := by
  have hd : (0 : Int) < (e.1 : Int) - s.1 := by omega
  have hlimit : (e.1 : Int) - s.1 ≤ 2147483647 := by
    have he := e.2.2
    unfold integerMax at he
    omega
  have hvalue : (amount.numeric.mul (.ofInt 60)).value
      = amount.numeric.value * 60 := by
    rw [Numeric.value_mul, Numeric.value_ofInt]
    norm_num
  have hunits : 0 ≤ (amount.numeric.mul (.ofInt 60)).units := by
    show (0 : Int) ≤ (amount.1 : Int) * 60
    omega
  rw [← hvalue] at hsmall ⊢
  refine Numeric.le_div?_iff_le hunits hd hprice rfl ?_
  -- a price below 10000² keeps twelve decimals, one of zero even more
  have hscale : 12 ≤ price.scale := by
    rcases hunits.eq_or_lt with hzero | hpos
    · have hten := Numeric.scale_div?_zero hzero.symm
        (show (0 : Int) < (Numeric.ofInt _).units from hd) rfl hprice
      omega
    · refine Numeric.le_scale_div? (k := 1) hpos hd hprice ?_
      rw [Numeric.value_ofInt]
      norm_num at hsmall ⊢
      exact hsmall
  have hpow : (10 : Int) ^ 12 ≤ 10 ^ price.scale :=
    pow_le_pow_right₀ (by norm_num) hscale
  show (10 : Int) ^ 2 * ((e.1 : Int) - s.1) < 2 * 10 ^ price.scale
  omega

/-- The best priority for the rounded price is the best for the exact one. -/
theorem Best.exact {v : VideoValues} {id : VideoPriorityID}
    (h : Best db v id) (htimed : v.Timed)
    (hsmall : ∀ price ∈ exactPrice v, price < 10 ^ 8) :
    BestExactly db v id := by
  obtain ⟨amount, hamount, e, he, price, hprice, p, hp, hid, howns, hle,
    hhighest⟩ := h
  have hexact : exactPrice v = some (amount.numeric.value * 60
      / (((e.1 : Int) - v.startSeconds.1 : Int) : ℚ)) := by
    unfold exactPrice
    rw [Option.mem_def.mp hamount, Option.mem_def.mp he]
  have hiff := threshold_le_price (htimed e he) hprice
    (hsmall _ hexact)
  refine ⟨_, hexact, p, hp, hid, howns, (hiff _).mp hle, ?_⟩
  intro q hq hqu hqle
  exact (hhighest q hq hqu ((hiff _).mpr hqle)).1

-- ================================ no failure

theorem storeVideo_trigger {old : Option VideoValues} {e : TriggerError}
    (h : db.storeVideo retain old new = .error (.trigger e)) :
    setVideoPriorityID retain old new db = .error e := by
  unfold Db.storeVideo at h
  split at h
  case h_1 e' he =>
    cases h
    exact he
  case h_2 values _ =>
    exfalso
    unfold VideoValues.check at h
    repeat' split at h
    all_goals cases h

/-- A row that can be placed does not fail in the trigger. -/
theorem storeVideo_no_trigger {old : Option VideoValues}
    (h : ∃ owner, Placeable db new owner) (e : TriggerError) :
    db.storeVideo retain old new ≠ .error (.trigger e) := by
  intro he
  obtain ⟨owner, hplaceable⟩ := h
  exact setVideoPriorityID_error hplaceable e (storeVideo_trigger he)

/-- A version of a row in a queue of its owner can be placed. -/
theorem placeable_version (hdb : db.Good)
    (hold : old ∈ db.videos) (new : VideoValues)
    (hdonation : new.donationID = old.donationID)
    (huser : new.userID = old.userID)
    (hpriority : new.videoPriorityID = old.videoPriorityID)
    (hqueue : new.videoQueueID = old.videoQueueID
      ∨ ∃ q ∈ db.queues, new.videoQueueID = some q.videoQueueID
        ∧ Owns db q.userID old.toVideoValues)
    (htimed : ¬ new.Unranked → new.Timed) :
    ∃ owner, Placeable db new owner := by
  have hrefers := hdb.video old hold
  obtain ⟨u, hu, howns⟩ := hrefers.owner
  have hsame : ∀ {id}, Owns db id old.toVideoValues → id = u.userID :=
    fun h => h.unique howns
  refine ⟨u.userID, ⟨?_, ?_, ?_, hdb.defaultPriority u hu, htimed⟩⟩
  · unfold Owns at howns ⊢
    rw [hdonation, huser]
    exact howns
  · rcases hqueue with heq | ⟨q, hq, hid, hown⟩
    · obtain ⟨q, hq, hid, hown⟩ := hrefers.queue
      exact ⟨q, hq, hsame hown, Or.inr (heq.trans hid)⟩
    · exact ⟨q, hq, hsame hown, Or.inr hid⟩
  · intro id hid
    rw [hpriority] at hid
    obtain ⟨p, hp, hpid, hown⟩ := hrefers.priority id hid
    exact ⟨p, hp, hpid, hsame hown⟩

theorem insertVideo_no_trigger {now : Time}
    (h : ∃ owner, Placeable db new owner) (e : TriggerError) :
    db.insertVideo new now ≠ .error (.trigger e) := by
  unfold Db.insertVideo
  split
  case h_1 e' he' =>
    intro he
    cases he
    exact storeVideo_no_trigger h e he'
  case h_2 =>
    split
    case isTrue => exact fun he => by cases he
    case isFalse => exact fun he => by cases he

/-- A manual video is not refused by the trigger. -/
theorem addManualVideo_no_trigger {url : String}
    {providerVideoID : Option String} {details : VideoDetails}
    {queueID : Option VideoQueueID} {now : Time}
    (hdb : db.Good) (e : TriggerError) :
    addManualVideo userID url providerVideoID details queueID now videoID db
      ≠ .error (.trigger e) := by
  unfold addManualVideo
  split
  case h_1 => exact fun he => by cases he
  case h_2 =>
  split
  case h_1 => exact fun he => by cases he
  case h_2 queue hqueue =>
  obtain ⟨hmem, hqu, -⟩ := Table.find?_eq_some hqueue
  obtain ⟨u, hu, hid⟩ := hdb.queueUser queue hmem
  obtain ⟨p, hp, hpu, hpd⟩ := hdb.defaultPriority u hu
  split
  case h_1 e' he' =>
    intro he
    cases he
    refine insertVideo_no_trigger ⟨userID, ?_⟩ e he'
    exact
      { owned := Or.inl rfl
        queue := ⟨queue, hmem, hqu, Or.inr rfl⟩
        priority := fun id hid => by cases hid
        defaultPriority := ⟨p, hp, hpu.trans (hid.trans hqu), hpd⟩
        timed := fun _ => details.validVideoTiming }
  case h_2 =>
    split
    case isTrue => exact fun he => by cases he
    case isFalse => exact fun he => by cases he

theorem updatedVideos_no_trigger
    {rows : Table fun v : Video => v.videoID} (e : TriggerError) :
    updatedVideos rows ≠ .error (.trigger e) := by
  unfold updatedVideos
  split
  case isTrue => exact fun he => by cases he
  case isFalse => exact fun he => by cases he

/-- A move is not refused by the trigger. -/
theorem moveVideo_no_trigger
    {queueID : VideoQueueID} (hdb : db.Good) (e : TriggerError) :
    moveVideo userID videoID queueID db ≠ .error (.trigger e) := by
  unfold moveVideo
  split
  case h_2 => exact updatedVideos_no_trigger e
  case h_1 e' he' =>
    intro he
    cases he
    obtain ⟨old, hold, ⟨-, hown, q, hq, hqid, hqu⟩, hf | ⟨new, hnew, hf⟩⟩ :=
      updateVideos_error he'
    · cases hf
    · cases hnew
      refine storeVideo_no_trigger ?_ e hf
      refine placeable_version hdb hold _ rfl rfl rfl
        (Or.inr ⟨q, hq, congrArg some hqid.symm, ?_⟩) fun _ => old.timed
      rw [hqu]
      exact ownsVideo_iff.mp hown

/-- The times of an edited row, where it is ranked. -/
theorem VideoDetails.timed {details : VideoDetails} {old : VideoValues}
    (h : ¬ (details.values old).Unranked) : (details.values old).Timed := by
  intro e he
  change details.endSeconds.or old.durationSeconds = some e at he
  cases hend : details.endSeconds with
  | some e' =>
      rw [hend] at he
      cases he
      exact details.validVideoTiming e hend
  | none =>
      rw [hend, Option.none_or] at he
      by_contra hle
      exact h (Or.inr (Or.inr ⟨e, he, not_lt.mp hle⟩))

theorem translate_trigger {e' : StoreError} {e : TriggerError}
    (h : translateConstraintViolation e' = .trigger e) : e' = .trigger e := by
  unfold translateConstraintViolation at h
  split at h
  case h_1 => cases h
  case h_2 => cases h
  case h_3 => exact h

theorem updateVideo_no_trigger
    {details : VideoDetails} (hdb : db.Good) (e : TriggerError) :
    updateVideo userID videoID details db ≠ .error (.trigger e) := by
  unfold updateVideo
  split
  case h_2 => exact updatedVideos_no_trigger e
  case h_1 e' he' =>
    intro he
    injection he with he
    rw [translate_trigger he] at he'
    obtain ⟨old, hold, -, hf | ⟨new, hnew, hf⟩⟩ := updateVideos_error he'
    · cases hf
    · cases hnew
      refine storeVideo_no_trigger ?_ e hf
      exact placeable_version hdb hold _ rfl rfl rfl (Or.inl rfl)
        VideoDetails.timed

/-- The conversion of the amounts is not refused by the trigger. -/
theorem amounts_no_trigger {change : CurrencyChange}
    {previous : QueueCurrency} (hdb : db.Good) (e : TriggerError) :
    change.amounts previous db ≠ .error (.trigger e) := by
  unfold CurrencyChange.amounts
  split
  case h_2 => exact fun he => by cases he
  case h_1 e' he' =>
    intro he
    cases he
    obtain ⟨old, hold, -, hf | ⟨new, hnew, hf⟩⟩ := updateVideos_error he'
    · split at hf
      case h_1 => cases hf
      case h_2 amount _ =>
        unfold convertAmount at hf
        repeat' split at hf
        all_goals cases hf
    · have hplaceable : ∃ owner, Placeable db new owner := by
        split at hnew
        case h_1 =>
          cases hnew
          exact placeable_version hdb hold _ rfl rfl rfl (Or.inl rfl)
            fun _ => old.timed
        case h_2 amount _ =>
          obtain ⟨amount', -, rfl⟩ := map_eq_ok hnew
          exact placeable_version hdb hold _ rfl rfl rfl (Or.inl rfl)
            fun _ => old.timed
      exact storeVideo_no_trigger hplaceable e hf

/-- The times of a row whose duration becomes known. -/
theorem MetadataCompletion.timed_timed (completion : MetadataCompletion)
    (duration : PositiveInt) {old : VideoValues} (h : old.Timed) :
    (completion.timed duration old).Timed := by
  intro e he
  change (if old.startSeconds.1 < duration.1 then
      some (min (old.endSeconds.getD duration) duration)
    else old.endSeconds) = some e at he
  split at he
  case isFalse => exact h e he
  case isTrue hlt =>
    cases he
    show old.startSeconds.1
      < (min (old.endSeconds.getD duration) duration).1
    rcases min_choice (old.endSeconds.getD duration) duration with hmin | hmin
    · rw [hmin]
      cases hend : old.endSeconds with
      | none => exact hlt
      | some e' => exact h e' hend
    · rw [hmin]
      exact hlt

/-- A lookup's update is not refused by the trigger. -/
theorem updateVideo_lookup_no_trigger {completion : MetadataCompletion}
    (hdb : db.Good) (e : TriggerError) :
    completion.updateVideo db ≠ .error (.trigger e) := by
  unfold MetadataCompletion.updateVideo
  dsimp only
  split
  case h_2 => exact fun he => by cases he
  case h_1 e' he' =>
    intro he
    cases he
    split at he'
    case h_1 =>
      obtain ⟨old, -, -, hcheck⟩ := Table.modify?_error he'
      unfold VideoValues.check at hcheck
      repeat' split at hcheck
      all_goals cases hcheck
    case h_2 durationSeconds _ =>
      split at he'
      case h_1 => cases he'
      case h_2 duration _ =>
        obtain ⟨old, hold, -, hf | ⟨new, hnew, hf⟩⟩ := updateVideos_error he'
        · cases hf
        · cases hnew
          refine storeVideo_no_trigger ?_ e hf
          exact placeable_version hdb hold _ rfl rfl rfl (Or.inl rfl)
            fun _ => completion.timed_timed duration old.timed

/-- A scanned video is not refused by the trigger. -/
theorem insert_no_trigger {completion : Completion}
    {queueAmount : Option Money} {video : ScannedVideo}
    {videos : List ScannedVideo} (hdb : db.Good)
    (hread : ∃ d ∈ db.donations, d.donationID = completion.job.donationID)
    (e : TriggerError) :
    completion.insert queueAmount video videos videoID db
      ≠ .error (.trigger e) := by
  obtain ⟨d, hd, hid⟩ := hread
  obtain ⟨u, hu, huid⟩ := hdb.donationUser d hd
  obtain ⟨q, hq, hqu, hqd⟩ := hdb.defaultQueue u hu
  unfold Completion.insert
  split
  case h_2 => exact fun he => by cases he
  case h_1 e' he' =>
    intro he
    cases he
    unfold Db.insertScanned at he'
    split at he'
    case h_1 e'' he'' =>
      cases he'
      refine insertVideo_no_trigger ⟨u.userID, ?_⟩ e he''
      exact
        { owned := Or.inr
            ⟨rfl, d, hd, congrArg some hid.symm, huid.symm⟩
          queue := ⟨q, hq, hqu, Or.inl ⟨rfl, hqd⟩⟩
          priority := fun id hid => by cases hid
          defaultPriority := hdb.defaultPriority u hu
          timed := fun _ => video.timed }
    case h_2 =>
      split at he'
      case isTrue => cases he'
      case isFalse => cases he'

theorem annotateVideos_no_trigger {p : Video → Prop} [DecidablePred p]
    {f : VideoValues → VideoValues} {hf : ∀ v, (f v).videoID = v.videoID}
    (e : TriggerError) :
    db.annotateVideos p f hf ≠ .error (.trigger e) := by
  intro h
  obtain ⟨old, -, -, hcheck⟩ := Table.modify?_error h
  unfold VideoValues.check at hcheck
  repeat' split at hcheck
  all_goals cases hcheck

theorem nextAttempts_no_trigger {n : NonnegativeInt} (e : TriggerError) :
    nextAttempts n ≠ .error (.trigger e) := by
  unfold nextAttempts
  split
  case isTrue => exact fun he => by cases he
  case isFalse => exact fun he => by cases he

theorem withThreshold_no_trigger {p : VideoPriority} {amount : Money}
    (e : TriggerError) : p.withThreshold amount ≠ .error (.trigger e) := by
  unfold VideoPriority.withThreshold
  split
  case isTrue => exact fun he => by cases he
  case isFalse => exact fun he => by cases he

/-- No call fails in the trigger. -/
theorem call_no_trigger {call : Call} (hdb : db.Good)
    (e : TriggerError) : call.perform db ≠ .error (.trigger e) := by
  intro h
  cases call with
  | getOrCreateUserId authUserID missed draw =>
      have h := map_eq_error h
      unfold getOrCreateUserId at h
      split at h
      case h_1 =>
        split at h
        case isFalse => cases h
        case isTrue =>
          unfold completeUser at h
          simp only at h
          split at h
          case isTrue => cases h
          case isFalse =>
            split at h
            case h_2 => cases h
            case h_1 e' he' =>
              cases h
              unfold Db.insertMainQueue at he'
              repeat' split at he'
              all_goals cases he'
      case h_2 =>
        split at h
        case isTrue => cases h
        case isFalse =>
          split at h
          case h_2 => cases h
          case h_1 e' he' =>
            cases h
            unfold Db.insertMainQueue at he'
            repeat' split at he'
            all_goals cases he'
  | createQueue userID label queueID =>
      have h := map_eq_error h
      unfold createQueue at h
      repeat' split at h
      all_goals cases h
  | updateQueue userID queueID label isDefault =>
      have h := map_eq_error h
      unfold updateQueue at h
      repeat' split at h
      all_goals cases h
  | addManualVideo userID url providerVideoID details queueID now videoID =>
      exact addManualVideo_no_trigger hdb e (map_eq_error h)
  | moveVideo userID videoID queueID =>
      exact moveVideo_no_trigger hdb e (map_eq_error h)
  | updateVideo userID videoID details =>
      exact updateVideo_no_trigger hdb e (map_eq_error h)
  | updateStatus userID videoID watchedAt bookmarkedAt =>
      have h := map_eq_error h
      unfold updateStatus at h
      split at h
      case h_1 e' he' =>
        cases h
        exact annotateVideos_no_trigger e he'
      case h_2 => exact updatedVideos_no_trigger e h
  | retryMetadata userID videoID unseen now => cases h
  | updatePriority userID priorityID label minPrice =>
      have h := map_eq_error h
      unfold updatePriority at h
      split at h
      case h_1 => cases h
      case h_2 =>
        split at h
        case h_1 e' he' =>
          injection h with h
          rw [translate_trigger h] at he'
          exact withThreshold_no_trigger e he'
        case h_2 =>
          split at h
          case isTrue => cases h
          case isFalse => cases h
  | insertDonation donation now =>
      have h := map_eq_error h
      unfold insertDonation at h
      dsimp only at h
      repeat' split at h
      all_goals cases h
  | backfill now => cases h
  | claim locked now leaseDuration =>
      have h := map_eq_error h
      unfold claim at h
      split at h
      case h_1 => cases h
      case h_2 s hs =>
        split at h
        case h_1 e' he' =>
          cases h
          exact nextAttempts_no_trigger e he'
        case h_2 => cases h
  | retry job availableAt now =>
      have h := map_eq_error h
      unfold retry at h
      split at h
      case h_1 => cases h
      case h_2 => cases h
  | enqueueMetadata now => cases h
  | claimMetadata locked now =>
      have h := map_eq_error h
      unfold claimMetadata at h
      split at h
      case h_1 => cases h
      case h_2 j hj =>
        split at h
        case h_1 e' he' =>
          cases h
          exact nextAttempts_no_trigger e he'
        case h_2 => cases h
  | backfillTitle providerVideoID title =>
      have h := map_eq_error h
      unfold backfillTitle at h
      split at h
      case h_1 e' he' =>
        cases h
        exact annotateVideos_no_trigger e he'
      case h_2 => cases h

/-- No statement of a transaction fails in the trigger. -/
theorem statement_no_trigger {txn : Txn} {statement}
    (hnext : txn.statement = some statement) (hdb : db.Good)
    (hread : txn.DonationRead db) (e : TriggerError) :
    statement db videoID ≠ .error (.trigger e) := by
  intro h
  cases txn with
  | setQueueCurrency change stage =>
      obtain ⟨f, hf, rfl⟩ := Option.map_eq_some_iff.mp hnext
      have h := map_eq_error h
      cases stage with
      | lock =>
          cases hf
          unfold CurrencyChange.lock at h
          split at h
          case h_1 => cases h
          case h_2 => cases h
      | thresholds previous =>
          cases hf
          unfold CurrencyChange.thresholds at h
          split at h
          case h_2 => cases h
          case h_1 e' he' =>
            cases h
            obtain ⟨p, -, -, hp⟩ := Table.modify?_error he'
            unfold convertThreshold at hp
            repeat' split at hp
            all_goals first
              | exact withThreshold_no_trigger e hp
              | cases hp
      | retain previous => cases hf; cases h
      | amounts previous => cases hf; exact amounts_no_trigger hdb e h
      | currency previous => cases hf; cases h
      | commit => cases hf
  | complete completion stage =>
      obtain ⟨f, hf, rfl⟩ := Option.map_eq_some_iff.mp hnext
      have h := map_eq_error h
      cases stage with
      | guard =>
          cases hf
          change completion.guard db = _ at h
          unfold Completion.guard at h
          split at h
          case h_1 => cases h
          case h_2 => cases h
      | convert =>
          cases hf
          change completion.convert db = _ at h
          unfold Completion.convert at h
          split at h
          case h_1 => cases h
          case h_2 =>
            split at h
            case h_2 => cases h
            case h_1 e' he' =>
              cases h
              unfold convertWithDefaultRate at he'
              repeat' split at he'
              all_goals cases he'
      | insert queueAmount videos =>
          cases videos with
          | nil => cases hf; cases h
          | cons video videos =>
              cases hf
              exact insert_no_trigger hdb hread e h
      | parsed => cases hf; cases h
      | commit => cases hf
  | completeMetadata completion stage =>
      obtain ⟨f, hf, rfl⟩ := Option.map_eq_some_iff.mp hnext
      have h := map_eq_error h
      cases stage with
      | job =>
          cases hf
          unfold MetadataCompletion.updateJob at h
          split at h
          case h_1 => cases h
          case h_2 =>
            split at h
            case h_2 => cases h
            case h_1 e' he' =>
              cases h
              unfold MetadataCompletion.finished at he'
              repeat' split at he'
              all_goals cases he'
      | video =>
          cases hf
          exact updateVideo_lookup_no_trigger hdb e h
      | commit => cases hf

-- =============================== assignments

/-- The row keeps the priority of the version before it, whose segment it
has, and whose amount unless a currency change converted it. -/
def KeptFrom (source : Source) (old v : Video) : Prop :=
  v.videoPriorityID = old.videoPriorityID
    ∧ v.startSeconds = old.startSeconds ∧ v.endSeconds = old.endSeconds
    ∧ (v.queueAmount = old.queueAmount ∨ ∃ change previous,
        source = .inr (.setQueueCurrency change (.amounts previous)))

/-- What the trigger decided for a written row: nothing was to assign,
the assignment was kept, or it is the best one. -/
inductive Ranked (db : Db) (source : Source) (v : Video) : Prop
  | unranked (h : v.videoPriorityID = none)
  | kept (old : Video) (hold : old ∈ db.videos)
      (hid : old.videoID = v.videoID) (h : KeptFrom source old v)
  | assigned (id : VideoPriorityID) (hid : v.videoPriorityID = some id)
      (h : Best db v.toVideoValues id)

theorem Stored.best {old : Option VideoValues}
    (h : Stored db retain old new v)
    {id : VideoPriorityID} (hbest : Best db new id) :
    Best db v.toVideoValues id := by
  rw [h.values]
  exact hbest

/-- A row through the trigger. -/
theorem Stored.ranks (hold : old ∈ db.videos)
    (hid : old.videoID = v.videoID) {source : Source}
    (hretain : retain = true → ∃ change previous,
      source = .inr (.setQueueCurrency change (.amounts previous)))
    (h : Stored db retain (some old.toVideoValues) new v) :
    Ranked db source v := by
  have hdecision := h.decision
  generalize hpriority : v.videoPriorityID = id at hdecision
  cases hdecision with
  | unranked => exact Ranked.unranked hpriority
  | kept hrank hsome hkeeps hid' _ =>
      cases hsome
      obtain ⟨hamount, hstart, hend, -⟩ := hkeeps
      refine Ranked.kept old hold hid ⟨hpriority.trans hid'.symm, ?_, ?_, ?_⟩
      · rw [h.values]; exact hstart
      · rw [h.values]; exact hend
      · rw [h.values]; exact hamount.imp_right hretain
  | assigned _ _ hbest => exact Ranked.assigned _ hpriority (h.best hbest)

theorem Stored.ranks_new {source : Source} (h : Stored db false none new v) :
    Ranked db source v := by
  have hdecision := h.decision
  generalize hpriority : v.videoPriorityID = id at hdecision
  cases hdecision with
  | unranked => exact Ranked.unranked hpriority
  | kept _ hold _ _ _ => cases hold
  | assigned _ _ hbest => exact Ranked.assigned _ hpriority (h.best hbest)

/-- Every written row is ranked by what its statement saw. -/
theorem VideoWrite.ranked {source : Source}
    (h : VideoWrite db source v) : Ranked db source v := by
  cases h with
  | added _ _ _ h => exact h.ranks_new
  | scanned _ _ h => exact h.ranks_new
  | @changed _ old _ hold hchange =>
      have hid := hchange.videoID.symm
      cases hchange with
      | edited _ _ h => exact h.ranks hold hid (fun he => by cases he)
      | moved _ _ h => exact h.ranks hold hid (fun he => by cases he)
      | status _ hv =>
          exact Ranked.kept old hold hid
            ⟨by rw [hv], by rw [hv], by rw [hv], Or.inl (by rw [hv])⟩
      | backfilled _ hv =>
          exact Ranked.kept old hold hid
            ⟨by rw [hv], by rw [hv], by rw [hv], Or.inl (by rw [hv])⟩
      | converted _ _ _ h =>
          exact h.ranks hold hid fun _ => ⟨_, _, rfl⟩
      | timed _ _ _ h => exact h.ranks hold hid (fun he => by cases he)
      | titled _ _ hv =>
          exact Ranked.kept old hold hid
            ⟨by rw [hv], by rw [hv], by rw [hv], Or.inl (by rw [hv])⟩

/-- A version with the ranking columns of a ranked row keeps its
priority. -/
theorem Stored.retains (hranked : old.videoPriorityID = none ↔ old.Unranked)
    (hun : new.Unranked ↔ old.Unranked)
    (hkeeps : old.videoPriorityID.isSome →
      Keeps retain old.toVideoValues new)
    (h : Stored db retain (some old.toVideoValues) new v) :
    v.videoPriorityID = old.videoPriorityID := by
  cases hp : old.videoPriorityID with
  | none => exact h.ranked.mpr (h.unranked.mpr (hun.mpr (hranked.mp hp)))
  | some id =>
      rw [← hp]
      refine h.keeps (hkeeps (by rw [hp]; rfl)) fun hnew => ?_
      rw [hranked.mpr (hun.mp hnew)] at hp
      cases hp

/-- A moved row keeps its priority. -/
theorem moved_retains {queueID : VideoQueueID}
    (hranked : old.videoPriorityID = none ↔ old.Unranked)
    (h : Change db (.inl (.moveVideo userID videoID queueID)) old v) :
    v.videoPriorityID = old.videoPriorityID := by
  cases h with
  | moved _ _ h =>
      refine Stored.retains hranked ?_ (fun hs => ?_) h
      · exact Iff.rfl
      · exact ⟨Or.inl rfl, rfl, rfl, rfl, rfl, rfl, hs⟩

-- ================================= every run

/-- What an attempt of a call comes to. -/
abbrev Attempt := Sessions.Attempt Db Call Txn StoreError

/-- What a statement that ran did about priorities. -/
structure RanksVideos (a : Attempt) : Prop where
  /-- The trigger neither divided by zero nor found no priority, nor did
  it fail in another way. -/
  no_failure : ∀ e, a.result ≠ .error (.trigger e)
  ranked : ∀ written, a.result = .ok written → ∀ v ∈ written.videos,
    Ranked a.view a.source v
  /-- Below 10⁸ a minute the best priority is the exactly best one. -/
  exact : ∀ written, a.result = .ok written → ∀ v ∈ written.videos,
    ∀ id, Best a.view v.toVideoValues id →
      (∀ price ∈ exactPrice v.toVideoValues, price < 10 ^ 8) →
        BestExactly a.view v.toVideoValues id
  moved : ∀ userID videoID queueID written,
    a.source = .inl (.moveVideo userID videoID queueID) →
      a.result = .ok written → ∀ v ∈ written.videos,
        ∃ old ∈ a.view.videos, old.videoID = v.videoID
          ∧ v.videoPriorityID = old.videoPriorityID

/-- A statement that is never refused and writes what it should ranks its
videos. -/
theorem ranksVideos {a : Attempt} (hview : a.view.Good)
    (hno : ∀ e, a.result ≠ .error (.trigger e))
    (hwrote : ∀ written, a.result = .ok written →
      Wrote a.view a.source written) : RanksVideos a where
  no_failure := hno
  ranked written hok v hv := ((hwrote written hok).videos v hv).ranked
  exact _ _ v _ _ hbest hsmall := hbest.exact v.timed hsmall
  moved userID videoID queueID written hsource hok v hv := by
    have hwrite := (hwrote written hok).videos v hv
    rw [hsource] at hwrite
    cases hwrite with
    | changed hold hchange =>
        exact ⟨_, hold, hchange.videoID.symm,
          moved_retains (hview.video _ hold).ranked hchange⟩

/-- Every statement that runs in a reachable world ranks its videos. -/
theorem attempt_ranksVideos {w : World}
    (hw : Sessions.Reachable programs .empty w) {action : Action}
    {a : Attempt} (h : w.attempt programs action = some a) :
    RanksVideos a := by
  cases action with
  | call call =>
      cases h
      refine ranksVideos (reachable_good hw) (fun e he => ?_)
        (fun written hok => ?_)
      · exact call_no_trigger (reachable_good hw) e (map_eq_error he)
      · obtain ⟨effect, heffect, rfl⟩ := map_eq_ok hok
        exact call_wrote heffect
  | proceed sessionID draw =>
      obtain ⟨s, hs, hmap⟩ := Option.bind_eq_some_iff.mp h
      obtain ⟨statement, hnext, rfl⟩ := Option.map_eq_some_iff.mp hmap
      have hmem : s ∈ w.sessions := Table.mem_of_get? hs
      have hview := reachable_view_good hw hmem
      have hread := ((reachable_sound hw).2 s hmem).2
      refine ranksVideos hview (fun e he => ?_) (fun written hok => ?_)
      · exact statement_no_trigger hnext hview hread e (map_eq_error he)
      · obtain ⟨⟨effect, txn⟩, heffect, rfl⟩ := map_eq_ok hok
        exact statement_wrote hnext heffect
  | start sessionID txn => cases h
  | cut sessionID => cases h

/-- In every reachable world exactly the unranked videos are without
priority, and every statement that runs there ranks what it writes. -/
theorem videos_ranked (actions : List Action) :
    (∀ v ∈ (World.after actions).db.videos,
      v.videoPriorityID = none ↔
        v.queueAmount = none ∨ v.endSeconds = none
          ∨ ∃ d, v.durationSeconds = some d ∧ d.1 ≤ v.startSeconds.1)
      ∧ ∀ action a,
        (World.after actions).attempt programs action = some a →
          RanksVideos a := by
  have hw := reachable_after actions
  refine ⟨fun v hv => ?_, fun action a h => attempt_ranksVideos hw h⟩
  rw [((reachable_good hw).video v hv).ranked]
  unfold VideoValues.Unranked
  rw [Option.isNone_iff_eq_none, Option.isNone_iff_eq_none]
  rfl

end StreamBrew.Videos
