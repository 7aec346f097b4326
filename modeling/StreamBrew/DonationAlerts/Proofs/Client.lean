/-
A pass over a DonationAlerts history misses nothing that was listed when
it began.

Rows that come in meanwhile move others on to later pages, never to
earlier ones, so what was listed is read or has still to come
(`Pages.Walked`). A pass ends where nothing has still to come, a recent
pass also after its fourth page (`Complete`). What it saves is stored and
stays.
-/
import StreamBrew.DonationAlerts.Client
import StreamBrew.Donations.Proofs.Checkpoints

namespace StreamBrew.DonationAlerts.Client

open Donations (GoTime ProviderConnection DonationDraw Stored Ingested)
open Alert (UserID Time)
open Pages (Walked)

variable {Json : Type} {codec : RowCodec Json} {perPage : ℕ+}
  {occurredAfter : Option GoTime} {rows rows' : List Json}
  {pass : Pass Json} {history : History} {s : System Json}

-- ================================ statements

/-- The donations of rows that a reading keeps, in order. -/
def accepted (codec : RowCodec Json) (occurredAfter : Option GoTime)
    (rows : List Json) : List Donation :=
  rows.filterMap fun body =>
    (decodeDonation codec body).toOption.filter (wanted occurredAfter)

/-- The rows that are reported, in order. -/
def refused (codec : RowCodec Json) (rows : List Json) :
    List RejectedDonation :=
  rows.filterMap fun body =>
    match decodeDonation codec body with
    | .error error => some ⟨rejectedDonationID codec body, error⟩
    | .ok _ => none

/-- The rows that a reading goes through, where nothing comes in. -/
def reach (perPage : ℕ+) : Option GoTime → List Json → List Json
  | none, rows => rows
  | some _, rows => rows.take (maximumRecentHistoryPages * perPage)

/-- The row lies beyond the reach of a recent pass. -/
def Beyond (perPage : ℕ+) (occurredAfter : Option GoTime)
    (rows : List Json) (body : Json) : Prop :=
  occurredAfter.isSome = true
    ∧ body ∈ rows.drop (maximumRecentHistoryPages * perPage)

/-- What a pass has read when it has come to its end. -/
structure Complete (codec : RowCodec Json) (perPage : ℕ+)
    (pass : Pass Json) (history : History) (rows : List Json) : Prop where
  grown : pass.began.Sublist rows
  /-- Every donation is that of a row, and late enough. -/
  known : ∀ d ∈ history.donations, ∃ body ∈ rows,
    decodeDonation codec body = .ok d
      ∧ wanted pass.owner.occurredAfter d = true
  /-- Every row that was listed was read: it is kept, reported, or too
  old. -/
  read : ∀ body ∈ pass.began,
    Beyond perPage pass.owner.occurredAfter rows body
      ∨ (∀ d, decodeDonation codec body = .ok d →
          wanted pass.owner.occurredAfter d = true → d ∈ history.donations)
        ∧ ∀ error, decodeDonation codec body = .error error →
          ⟨rejectedDonationID codec body, error⟩ ∈ history.rejected
  /-- Where nothing came in, each row was read once and in order. -/
  still : rows = pass.began →
    history.donations = accepted codec pass.owner.occurredAfter
        (reach perPage pass.owner.occurredAfter rows)
      ∧ history.rejected
        = refused codec (reach perPage pass.owner.occurredAfter rows)

/-- A pass that reads, with what it has read. -/
structure Reads (codec : RowCodec Json) (perPage : ℕ+) (pass : Pass Json)
    (r : Reading) (rows : List Json) : Prop where
  asked : r.occurredAfter = pass.owner.occurredAfter
    ∧ r.maximumPages = (getDonations pass.owner.occurredAfter).maximumPages
  positive : 1 ≤ r.pageNumber
  recent : pass.owner.occurredAfter.isSome = true →
    r.pageNumber ≤ maximumRecentHistoryPages
  listed : r.pageNumber ≤ max (Pages.count rows.length perPage) 1
  walked : ∃ read,
    Walked pass.began read rows ((r.pageNumber - 1) * perPage)
      ∧ r.history.donations
        = accepted codec pass.owner.occurredAfter read
      ∧ r.history.rejected = refused codec read

/-- What is known of a pass at each point of its progress. -/
structure PassInv (codec : RowCodec Json) (perPage : ℕ+)
    (pass : Pass Json) (rows : List Json) : Prop where
  reads : ∀ r, pass.progress = .next r → Reads codec perPage pass r rows
  complete : ∀ history, pass.progress = .done history →
    Complete codec perPage pass history rows
  failed : ∀ error, pass.progress = .failed error → error = .request

-- ===================================== pages

theorem mem_accepted {d : Donation} :
    d ∈ accepted codec occurredAfter rows ↔ ∃ body ∈ rows,
      decodeDonation codec body = .ok d
        ∧ wanted occurredAfter d = true := by
  unfold accepted
  rw [List.mem_filterMap]
  refine exists_congr fun body => and_congr_right fun _ => ?_
  cases decodeDonation codec body with
  | error e => simp [Except.toOption]
  | ok donation =>
      rw [Except.toOption, Option.filter_eq_some_iff, Option.some.injEq,
        Except.ok.injEq]

theorem mem_refused {body : Json} {error : RowError} (hbody : body ∈ rows)
    (herror : decodeDonation codec body = .error error) :
    ⟨rejectedDonationID codec body, error⟩ ∈ refused codec rows := by
  unfold refused
  rw [List.mem_filterMap]
  refine ⟨body, hbody, ?_⟩
  rw [herror]

theorem row_donations (body : Json) :
    (History.row codec occurredAfter history body).donations
      = history.donations ++ accepted codec occurredAfter [body] := by
  unfold History.row accepted
  rw [List.filterMap_cons, List.filterMap_nil]
  cases decodeDonation codec body with
  | error e => exact (List.append_nil _).symm
  | ok d =>
      simp only [Except.toOption, Option.filter_some]
      split
      case isTrue h => rfl
      case isFalse h => exact (List.append_nil _).symm

theorem row_rejected (body : Json) :
    (History.row codec occurredAfter history body).rejected
      = history.rejected ++ refused codec [body] := by
  unfold History.row refused
  rw [List.filterMap_cons, List.filterMap_nil]
  cases decodeDonation codec body with
  | error e => rfl
  | ok d =>
      simp only
      split <;> exact (List.append_nil _).symm

/-- Reading on. -/
theorem rows_eq (read data : List Json)
    (hdonations : history.donations = accepted codec occurredAfter read)
    (hrejected : history.rejected = refused codec read) :
    (data.foldl (History.row codec occurredAfter) history).donations
        = accepted codec occurredAfter (read ++ data)
      ∧ (data.foldl (History.row codec occurredAfter) history).rejected
        = refused codec (read ++ data) := by
  induction data generalizing read history with
  | nil =>
      rw [List.append_nil]
      exact ⟨hdonations, hrejected⟩
  | cons body data ih =>
      have hsplit : read ++ body :: data = (read ++ [body]) ++ data := by
        rw [List.append_assoc]
        rfl
      rw [List.foldl_cons, hsplit]
      apply ih
      · rw [row_donations, hdonations]
        exact List.filterMap_append.symm
      · rw [row_rejected, hrejected]
        exact List.filterMap_append.symm

/-- A row of the beginning that was read is in what was read of it. -/
theorem complete_of_walked {read : List Json} {next : Nat}
    (h : Walked pass.began read rows next)
    (hdonations : history.donations
      = accepted codec pass.owner.occurredAfter read)
    (hrejected : history.rejected = refused codec read)
    (hend : rows.length ≤ next
      ∨ pass.owner.occurredAfter.isSome = true
        ∧ next = maximumRecentHistoryPages * perPage)
    (hwindow : pass.owner.occurredAfter.isSome = true →
      next ≤ maximumRecentHistoryPages * perPage) :
    Complete codec perPage pass history rows := by
  refine ⟨h.grown, fun d hd => ?_, fun body hbody => ?_, fun hsame => ?_⟩
  · rw [hdonations] at hd
    obtain ⟨body, hbody, hok⟩ := mem_accepted.mp hd
    exact ⟨body, h.known body hbody, hok⟩
  · have hread : body ∈ read
        ∨ Beyond perPage pass.owner.occurredAfter rows body := by
      rcases hend with hlen | ⟨hrecent, rfl⟩
      · exact .inl (h.all hlen body hbody)
      · exact (h.covered body hbody).imp_right fun hd => ⟨hrecent, hd⟩
    refine hread.symm.imp_right fun hread => ⟨fun d hok hw => ?_,
      fun error herror => ?_⟩
    · rw [hdonations]
      exact mem_accepted.mpr ⟨body, hread, hok, hw⟩
    · rw [hrejected]
      exact mem_refused hread herror
  · have hreach : read = reach perPage pass.owner.occurredAfter rows := by
      rw [h.still hsame]
      cases hafter : pass.owner.occurredAfter with
      | none =>
          rw [hafter] at hend
          have hlen : rows.length ≤ next :=
            hend.resolve_right fun hr => by simp at hr
          exact List.take_of_length_le hlen
      | some time =>
          rw [hafter] at hend hwindow
          rcases hend with hlen | ⟨-, rfl⟩
          · have hle := hwindow rfl
            show rows.take next = rows.take _
            rw [List.take_of_length_le hlen,
              List.take_of_length_le (hlen.trans hle)]
          · rfl
    rw [hdonations, hrejected, hreach]
    exact ⟨rfl, rfl⟩

-- ===================================== steps

theorem count_mono (size : Nat) {n m : Nat} (h : n ≤ m) :
    Pages.count n size ≤ Pages.count m size :=
  Nat.div_le_div_right (by omega)

theorem Complete.grow (h : Complete codec perPage pass history rows)
    (hs : rows.Sublist rows') :
    Complete codec perPage pass history rows' := by
  refine ⟨h.grown.trans hs, fun d hd => ?_, fun body hbody => ?_,
    fun hsame => ?_⟩
  · obtain ⟨body, hbody, hok⟩ := h.known d hd
    exact ⟨body, hs.subset hbody, hok⟩
  · exact (h.read body hbody).imp_left fun hb =>
      ⟨hb.1, (hs.drop _).subset hb.2⟩
  · have hlen : rows'.length ≤ rows.length := by
      rw [hsame]
      exact h.grown.length_le
    have hrows : rows = rows' := hs.eq_of_length_le hlen
    rw [← hrows]
    exact h.still (hrows.trans hsame)

theorem PassInv.grow (h : PassInv codec perPage pass rows)
    (hs : rows.Sublist rows') : PassInv codec perPage pass rows' := by
  refine ⟨fun r hr => ?_, fun history hh => (h.complete history hh).grow hs,
    h.failed⟩
  have hreads := h.reads r hr
  obtain ⟨read, hwalked, hhistory⟩ := hreads.walked
  have hcount := count_mono perPage hs.length_le
  have hlisted := hreads.listed
  exact { hreads with
    listed := by omega
    walked := ⟨read, hwalked.grow hs, hhistory⟩ }

/-- A pass that begins has read nothing. -/
theorem passInv_start (owner : Owner) (rows : List Json) :
    PassInv codec perPage
      { owner
        began := rows
        progress := .next (getDonations owner.occurredAfter) } rows := by
  refine ⟨fun r hr => ?_, fun history hh => ?_, fun error he => ?_⟩
  · cases hr
    have hfirst : (getDonations owner.occurredAfter).pageNumber = 1 := by
      unfold getDonations
      split <;> rfl
    have hafter : (getDonations owner.occurredAfter).occurredAfter
        = owner.occurredAfter := by
      unfold getDonations
      split
      case h_1 h => exact h.symm
      case h_2 h => exact h.symm
    have hempty : (getDonations owner.occurredAfter).history = {} := by
      unfold getDonations
      split <;> rfl
    refine ⟨⟨hafter, rfl⟩, hfirst.ge, fun _ => ?_, ?_, ⟨[], ?_, ?_, ?_⟩⟩
    · rw [hfirst]
      decide
    · rw [hfirst]
      exact Nat.le_max_right _ _
    · rw [hfirst, Nat.sub_self, Nat.zero_mul]
      exact Walked.start rows
    · rw [hempty]
      rfl
    · rw [hempty]
      rfl
  · cases hh
  · cases he

/-- A page of a pass. -/
theorem Reads.page {owner : Owner} {began : List Json} {r : Reading}
    {old : Progress} (h : Reads codec perPage ⟨owner, began, old⟩ r rows) :
    PassInv codec perPage
      { owner
        began
        progress := r.page codec
          (System.answer perPage rows r.pageNumber) } rows := by
  obtain ⟨read, hwalked, hdonations, hrejected⟩ := h.walked
  have hpositive := h.positive
  have hturn : Walked began
      (read ++ Pages.page rows perPage (r.pageNumber - 1)) rows
      (r.pageNumber * perPage) := by
    have h := hwalked.page
    rwa [Nat.sub_add_cancel hpositive] at h
  have hafter : r.occurredAfter = owner.occurredAfter := h.asked.1
  have hmaximum : r.maximumPages
      = (getDonations owner.occurredAfter).maximumPages := h.asked.2
  have hrows := rows_eq read
    (Pages.page rows perPage (r.pageNumber - 1)) hdonations hrejected
  have hlast : ¬ (System.answer perPage rows r.pageNumber).lastPage ≤ 0 := by
    show ¬ ((max (Pages.count rows.length perPage) 1 : Nat) : Int) ≤ 0
    omega
  have hpage : r.page codec (System.answer perPage rows r.pageNumber)
      = if (Pages.page rows perPage (r.pageNumber - 1)).length = 0
          ∨ ((max (Pages.count rows.length perPage) 1 : Nat) : Int)
            ≤ r.pageNumber
          ∨ (0 < r.maximumPages ∧ r.maximumPages ≤ r.pageNumber) then
          .done ((Pages.page rows perPage (r.pageNumber - 1)).foldl
            (History.row codec owner.occurredAfter) r.history)
        else .next { r with
          history := (Pages.page rows perPage (r.pageNumber - 1)).foldl
            (History.row codec owner.occurredAfter) r.history
          pageNumber := r.pageNumber + 1 } := by
    unfold Reading.page
    rw [if_neg hlast, hafter]
    rfl
  -- A recent pass has asked for no more than its pages.
  have hwindow : owner.occurredAfter.isSome = true →
      r.pageNumber * perPage ≤ maximumRecentHistoryPages * perPage :=
    fun hrecent => Nat.mul_le_mul_right _ (h.recent hrecent)
  have hmaximumPages : 0 < r.maximumPages →
      owner.occurredAfter.isSome = true
        ∧ r.maximumPages = maximumRecentHistoryPages := by
    intro hpos
    rw [hmaximum] at hpos ⊢
    cases ho : owner.occurredAfter with
    | none =>
        rw [ho] at hpos
        cases hpos
    | some time => exact ⟨rfl, rfl⟩
  refine ⟨fun next hnext => ?_, fun history hdone => ?_, fun error he => ?_⟩
  · change r.page codec _ = .next next at hnext
    rw [hpage] at hnext
    split at hnext
    case isTrue => cases hnext
    case isFalse hgo =>
      cases hnext
      have hcount : r.pageNumber + 1
          ≤ max (Pages.count rows.length perPage) 1 := by omega
      refine ⟨h.asked, Nat.le_add_left 1 _, fun hrecent => ?_, hcount,
        ⟨_, hturn, hrows.1, hrows.2⟩⟩
      show r.pageNumber + 1 ≤ maximumRecentHistoryPages
      have hmax : r.maximumPages = maximumRecentHistoryPages := by
        rw [hmaximum]
        have hrecent : owner.occurredAfter.isSome = true := hrecent
        cases ho : owner.occurredAfter with
        | none =>
            rw [ho] at hrecent
            cases hrecent
        | some time => rfl
      have hfour : maximumRecentHistoryPages = 4 := rfl
      omega
  · change r.page codec _ = .done history at hdone
    rw [hpage] at hdone
    split at hdone
    case isFalse => cases hdone
    case isTrue hend =>
      cases hdone
      refine complete_of_walked hturn hrows.1 hrows.2 ?_ hwindow
      rcases hend with hempty | hlastPage | ⟨hpos, hmax⟩
      · left
        unfold Pages.page at hempty
        rw [List.length_take, List.length_drop] at hempty
        have hsize := perPage.pos
        have hmul : (r.pageNumber - 1) * perPage ≤ r.pageNumber * perPage :=
          Nat.mul_le_mul_right _ (Nat.sub_le _ _)
        omega
      · left
        have hcount : Pages.count rows.length perPage ≤ r.pageNumber := by
          omega
        exact (Pages.le_count_mul perPage.pos rows.length).trans
          (Nat.mul_le_mul_right _ hcount)
      · right
        obtain ⟨hrecent, hfour⟩ := hmaximumPages hpos
        have hle : r.pageNumber ≤ maximumRecentHistoryPages :=
          h.recent hrecent
        exact ⟨hrecent, by rw [Nat.le_antisymm hle (hfour ▸ hmax)]⟩
  · change r.page codec _ = .failed error at he
    rw [hpage] at he
    split at he <;> cases he

-- ================================= invariant

/-- Donations are ingested once, and every pass is what it should be. -/
structure Inv (codec : RowCodec Json) (perPage : ℕ+) (s : System Json) :
    Prop where
  ingested : Ingested s.app.db.alert
  passes : ∀ passID pass, s.passes passID = some pass →
    PassInv codec perPage pass (s.history pass.owner.account)

theorem Inv.set (hi : Inv codec perPage s) (passID : Nat)
    {pass : Option (Pass Json)}
    (hp : ∀ p ∈ pass, PassInv codec perPage p (s.history p.owner.account)) :
    Inv codec perPage (s.set passID pass) := by
  refine ⟨hi.ingested, fun id p hpass => ?_⟩
  change Function.update s.passes passID pass id = some p at hpass
  by_cases he : id = passID
  · subst he
    rw [Function.update_self] at hpass
    exact hp p hpass
  · rw [Function.update_of_ne he] at hpass
    exact hi.passes id p hpass

theorem Inv.publish (hi : Inv codec perPage s) (account : String)
    (index : Nat) (body : Json) :
    Inv codec perPage (s.step codec perPage
      (.publish account index body)) := by
  refine ⟨hi.ingested, fun passID pass hpass => ?_⟩
  refine (hi.passes passID pass hpass).grow ?_
  show (s.history pass.owner.account).Sublist (Function.update s.history
    account ((s.history account).insertIdx index body) pass.owner.account)
  by_cases he : pass.owner.account = account
  · rw [he, Function.update_self]
    exact List.sublist_insertIdx _ _ _
  · rw [Function.update_of_ne he]

theorem Inv.page (hi : Inv codec perPage s) (passID : Nat) :
    Inv codec perPage (s.page codec perPage passID) := by
  unfold System.page
  split
  case h_2 => exact hi
  case h_1 owner began r hpass =>
    refine hi.set passID fun p hp => ?_
    cases hp
    exact ((hi.passes passID _ hpass).reads r rfl).page

theorem Inv.fail (hi : Inv codec perPage s) (passID : Nat) :
    Inv codec perPage (s.fail passID) := by
  unfold System.fail
  split
  case h_2 => exact hi
  case h_1 owner began r hpass =>
    refine hi.set passID fun p hp => ?_
    cases hp
    refine ⟨fun r hr => ?_, fun history hh => ?_, fun error he => ?_⟩
    · cases hr
    · cases hh
    · cases he
      rfl

theorem Inv.start (hi : Inv codec perPage s) (passID : Nat)
    (owner : Owner) : Inv codec perPage (s.start passID owner) := by
  refine hi.set passID fun p hp => ?_
  cases hp
  exact passInv_start owner _

theorem Inv.application (hi : Inv codec perPage s) (a : Donations.Action) :
    Inv codec perPage { s with app := Donations.step s.app a } :=
  ⟨(hi.ingested.step a).1, hi.passes⟩

theorem Inv.save (hi : Inv codec perPage s) (passID : Nat) (time : Time)
    (draws : List DonationDraw) :
    Inv codec perPage (s.save passID time draws) := by
  have hgone : Inv codec perPage (s.set passID none) :=
    hi.set passID fun p hp => by cases hp
  unfold System.save
  split
  case h_2 => exact hi
  case h_1 =>
    split
    case h_1 a _ => exact hgone.application a
    case h_2 => exact hgone

/-- One step of anyone. -/
theorem Inv.step (hi : Inv codec perPage s) (a : Action Json) :
    Inv codec perPage (s.step codec perPage a) := by
  cases a with
  | publish account index body => exact hi.publish account index body
  | connect passID userID connection => exact hi.start passID _
  | recover passID jobID occurredAfter =>
      simp only [System.step]
      split
      case h_1 => exact hi
      case h_2 =>
        split
        case isTrue => exact hi.start passID _
        case isFalse => exact hi
  | page passID => exact hi.page passID
  | fail passID => exact hi.fail passID
  | abandon passID => exact hi.set passID fun p hp => by cases hp
  | save passID time draws => exact hi.save passID time draws
  | task a => exact hi.application a

theorem inv_run (acts : List (Action Json)) :
    Inv codec perPage
      (Run.run (System.step codec perPage) (.init Json) acts) := by
  refine Run.run_preserves ⟨Donations.ingested_run [], fun passID pass h =>
    ?_⟩ (fun _ a hi => hi.step a) acts
  cases h

-- ==================================== stores

/-- What is stored stays so. -/
theorem stored_step (hi : Inv codec perPage s) (a : Action Json)
    {userID : UserID} {id : String}
    (h : Stored userID .donationAlerts id s.app.db.alert) :
    Stored userID .donationAlerts id
      (s.step codec perPage a).app.db.alert := by
  have happ : ∀ a, Stored userID .donationAlerts id
      (Donations.step s.app a).db.alert :=
    fun a => (hi.ingested.step a).2 userID .donationAlerts id h
  cases a with
  | publish | connect | abandon => exact h
  | recover =>
      simp only [System.step]
      split
      case h_1 => exact h
      case h_2 => split <;> exact h
  | page =>
      simp only [System.step, System.page]
      split <;> exact h
  | fail =>
      simp only [System.step, System.fail]
      split <;> exact h
  | save =>
      simp only [System.step, System.save]
      split
      case h_1 =>
        split
        case h_1 a _ => exact happ a
        case h_2 => exact h
      case h_2 => exact h
  | task a => exact happ a

theorem stored_steps (hi : Inv codec perPage s) {userID : UserID}
    {id : String} (h : Stored userID .donationAlerts id s.app.db.alert)
    (acts : List (Action Json)) :
    Stored userID .donationAlerts id
      (Run.run (System.step codec perPage) s acts).app.db.alert := by
  have hboth := Run.run_preserves
    (P := fun s : System Json => Inv codec perPage s
      ∧ Stored userID .donationAlerts id s.app.db.alert)
    ⟨hi, h⟩ (fun _ a h => ⟨h.1.step a, stored_step h.1 a h.2⟩) acts
  exact hboth.2

/-- A pass that commits has stored what it read. -/
theorem save_stores {passID : Nat} {time : Time}
    {draws : List DonationDraw} (hpass : s.passes passID = some pass)
    (hdone : pass.progress = .done history)
    (hcommits : s.Commits time draws pass.owner history) :
    ∀ d ∈ history.donations, Stored pass.owner.userID .donationAlerts
      d.sourceDonationID (s.save passID time draws).app.db.alert := by
  obtain ⟨owner, began, progress⟩ := pass
  simp only at hdone
  subst hdone
  intro d hd
  have hmem : d.toBatch ∈ history.toBatch.donations :=
    List.mem_map_of_mem hd
  cases owner with
  | connect userID connection =>
      have hsave : (s.save passID time draws).app
          = Donations.step s.app (.store (.saveConnectionWithDonations
            .donationAlerts userID connection history.toBatch time
            draws)) := by
        simp only [System.save, hpass, System.saving]
      rw [hsave]
      have hcommits : (Donations.saveConnectionWithDonations
          .donationAlerts userID connection history.toBatch time draws
          s.app.db).1 = .ok () := hcommits
      rcases @Donations.saveConnectionWithDonations_atomic .donationAlerts
          userID connection history.toBatch time draws s.app.db with
        ⟨e, he⟩ | ⟨db', he, hholds, -⟩
      · rw [he] at hcommits
        cases hcommits
      · have hdb : (Donations.step s.app (.store
            (.saveConnectionWithDonations .donationAlerts userID connection
              history.toBatch time draws))).db = db' :=
          congrArg Prod.snd he
        rw [hdb]
        exact hholds _ hmem
  | job jobID connection occurredAfter =>
      obtain ⟨hjob, hcommits⟩ : _ ∧ (Donations.saveDonations
        .donationAlerts connection.version history.toBatch .recovery time
        draws s.app.db).1 = .ok () := hcommits
      have hsave : (s.save passID time draws).app
          = Donations.step s.app (.syncHistory jobID (.ok history.toBatch)
            time draws) := by
        simp only [System.save, hpass, System.saving, hjob, if_true]
      obtain ⟨job, hget, hsame⟩ := Option.map_eq_some_iff.mp hjob
      obtain ⟨hprovider, hconnection⟩ := Prod.mk.inj hsame
      have hdb : (Donations.step s.app (.syncHistory jobID
          (.ok history.toBatch) time draws)).db
          = (Donations.saveDonations .donationAlerts connection.version
            history.toBatch .recovery time draws s.app.db).2 := by
        simp only [Donations.step, hget, Donations.syncConnectionHistory,
          hprovider, hconnection]
      rw [hsave, hdb]
      rcases @Donations.saveDonations_atomic .donationAlerts
          connection.version history.toBatch .recovery time draws s.app.db
        with ⟨e, he⟩ | ⟨db', he, hholds, -⟩
      · rw [he] at hcommits
        cases hcommits
      · rw [he]
        exact hholds _ hmem

-- =================================== results

/-- In every run, a pass that has come to its end has read every row that
was listed when it began, a recent pass those up to the end of the fourth
page, and one that still reads has asked for no more pages than there
are. And once a pass has saved, all donations that it read are stored, from
then on, and with them all valid donations that it should have read. -/
theorem history_imported (codec : RowCodec Json) (perPage : ℕ+)
    (acts : List (Action Json)) :
    (∀ passID pass,
      (Run.run (System.step codec perPage) (.init Json) acts).passes passID
        = some pass →
      (∀ history, pass.progress = .done history →
        Complete codec perPage pass history
          ((Run.run (System.step codec perPage) (.init Json) acts).history
            pass.owner.account))
      ∧ (∀ r, pass.progress = .next r →
        r.pageNumber ≤ max (Pages.count
          ((Run.run (System.step codec perPage) (.init Json) acts).history
            pass.owner.account).length perPage) 1
        ∧ (pass.owner.occurredAfter.isSome = true →
          r.pageNumber ≤ maximumRecentHistoryPages))
      ∧ ∀ error, pass.progress = .failed error → error = .request)
    ∧ ∀ before passID time draws after,
      acts = before ++ .save passID time draws :: after →
      let s := Run.run (System.step codec perPage) (.init Json) before
      ∀ pass history, s.passes passID = some pass →
        pass.progress = .done history →
        s.Commits time draws pass.owner history →
        (∀ d ∈ history.donations,
          Stored pass.owner.userID .donationAlerts d.sourceDonationID
            (Run.run (System.step codec perPage) (.init Json)
              acts).app.db.alert)
        ∧ ∀ body ∈ pass.began, ∀ d, decodeDonation codec body = .ok d →
          wanted pass.owner.occurredAfter d = true →
          Beyond perPage pass.owner.occurredAfter
              (s.history pass.owner.account) body
            ∨ Stored pass.owner.userID .donationAlerts d.sourceDonationID
              (Run.run (System.step codec perPage) (.init Json)
                acts).app.db.alert := by
  constructor
  · intro passID pass hpass
    have hi : Inv codec perPage
        (Run.run (System.step codec perPage) (.init Json) acts) :=
      inv_run acts
    have hp := hi.passes passID pass hpass
    exact ⟨hp.complete, fun r hr => ⟨(hp.reads r hr).listed,
      (hp.reads r hr).recent⟩, hp.failed⟩
  · intro before passID time draws after hacts s pass history hpass hdone
      hcommits
    have hi : Inv codec perPage s := inv_run before
    have hstays : ∀ d ∈ history.donations,
        Stored pass.owner.userID .donationAlerts d.sourceDonationID
          (Run.run (System.step codec perPage) (.init Json)
            acts).app.db.alert := by
      intro d hd
      have hstored := save_stores hpass hdone hcommits d hd
      rw [hacts, Run.run_append]
      exact stored_steps (hi.save passID time draws) hstored after
    refine ⟨hstays, fun body hbody d hok hw => ?_⟩
    have hcomplete := (hi.passes passID pass hpass).complete history hdone
    exact (hcomplete.read body hbody).imp_right fun hread =>
      hstays d (hread.1 d hok hw)

/-- Rows as what they decode to; all at one time. -/
def plainCodec : RowCodec (Option RawDonation) where
  identity := fun body => body.map RawDonation.id
  fields := fun body => body
  parseTime := fun _ => some 0

/-- An import of two pages; a row comes in between them and moves the
last one of the first page on to the second. -/
def importingRun : List (Action (Option RawDonation)) :=
  [.publish "s" 0 (some { id := "1", amount := "2", currency := "USD" }),
    .publish "s" 0 (some { id := "2", amount := "3", currency := "USD" }),
    .connect 0 1
      { accessToken := "a", refreshToken := "r", sourceUserID := "s" },
    .page 0,
    .publish "s" 0 none,
    .page 0,
    .page 0,
    .save 0 0 [⟨1, ⟨1, 0⟩⟩, ⟨2, ⟨2, 0⟩⟩, ⟨3, ⟨3, 0⟩⟩]]

example :
    let db := (Run.run (System.step plainCodec 1) (.init _)
      importingRun).app.db.alert
    Stored 1 .donationAlerts "1" db ∧ Stored 1 .donationAlerts "2" db := by
  decide

end StreamBrew.DonationAlerts.Client
