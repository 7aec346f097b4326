/-
What a pass over a Streamlabs history may rely on, and what it comes to.

A checkpoint is `Sound` for a user when it is the id of a row, and every
valid row at or below that row is stored for the user. A reading holds a
stretch of the history (`Reads`): newer rows may come, and it goes on
below its last row. When it ends, its checkpoint is that of its first
row, and the rows at or below that are what it read, or at or below the
checkpoint it began with (`Finishes`).
-/
import StreamBrew.Donations.Proofs.Checkpoints
import StreamBrew.Streamlabs.Proofs.Client
import StreamBrew.Streamlabs.System

namespace StreamBrew.Streamlabs

open Backlog
open Donations (Connection ConnectionRow ProviderConnection DonationDraw
  Stored Ingested Holds Listener HistoryJob)
open Alert (UserID Time)

variable {r : Reading}

variable {Json : Type} {codec : RowCodec Json}

-- ================================ statements

/-- A valid row is stored for the user. -/
def RowStored (codec : RowCodec Json) (userID : UserID)
    (alert : Alert.Db) (body : Json) : Prop :=
  ∀ d, (decodeDonation codec body).donation = .ok d →
    Stored userID .streamlabs d.sourceDonationID alert

/-- The checkpoint is the id of a row of the account, and every valid row
at or below that one is stored. -/
structure Sound (codec : RowCodec Json) (s : System Json)
    (userID : UserID) (account checkpoint : String) : Prop where
  named : checkpoint ≠ ""
  known : ∃ body ∈ s.history account, rowID codec body = checkpoint
  covers : Covers (rowID codec) (RowStored codec userID s.app.db.alert)
    checkpoint (s.history account)

/-- The checkpoint of a connection, where it has one, is sound. -/
def Vouched (codec : RowCodec Json) (s : System Json)
    (mark : UserID × String × Option String) : Prop :=
  ∀ checkpoint ∈ mark.2.2, Sound codec s mark.1 mark.2.1 checkpoint

/-- What a reading that goes on has read. -/
def Reads (codec : RowCodec Json) (rows : List Json) (r : Reading) :
    Prop :=
  ∃ read rest, Stretch read rest rows
    ∧ (read = [] → r.before = "" ∧ r.newCheckpoint = none)
    ∧ (∀ head ∈ read.head?, rowID codec head ≠ ""
      ∧ r.newCheckpoint = some (rowID codec head))
    ∧ (∀ last ∈ read.getLast?, rowID codec last ≠ ""
      ∧ r.before = rowID codec last)
    ∧ ∀ body ∈ read, ∀ d, (decodeDonation codec body).donation = .ok d →
      d ∈ r.donations

/-- What a history that was read justifies: the valid rows at or below
its checkpoint are among its donations, or were stored. -/
structure Finishes (codec : RowCodec Json) (s : System Json)
    (userID : UserID) (account : String) (history : History)
    (checkpoint : String) : Prop where
  named : checkpoint ≠ ""
  known : ∃ body ∈ s.history account, rowID codec body = checkpoint
  covers : Covers (rowID codec)
    (fun body => RowStored codec userID s.app.db.alert body
      ∨ ∀ d, (decodeDonation codec body).donation = .ok d →
        d ∈ history.donations)
    checkpoint (s.history account)

/-- Whose history is read, and from where on. -/
def Owner.mark (owner : Owner) : UserID × String × Option String :=
  (owner.userID, owner.account, owner.checkpoint)

/-- A pass that reads or has come to its end. -/
structure PassInv (codec : RowCodec Json) (s : System Json)
    (pass : Pass) : Prop where
  vouched : Vouched codec s pass.owner.mark
  reads : ∀ r, pass.progress = .next r →
    r.checkpoint = pass.owner.checkpoint
      ∧ Reads codec (s.history pass.owner.account) r
  finishes : ∀ history, pass.progress = .done history →
    ∀ checkpoint ∈ history.checkpoint, Finishes codec s pass.owner.userID
      pass.owner.account history checkpoint

/-- Identifiers are distinct, and every checkpoint is one of the rows it
vouches for. -/
structure Inv (codec : RowCodec Json) (s : System Json) : Prop where
  ingested : Ingested s.app.db.alert
  distinct : ∀ account,
    Distinct (rowID codec) (· ≠ "") (s.history account)
  rows : ∀ r ∈ s.app.db.connections, r.provider = .streamlabs →
    Vouched codec s r.toConnection.mark
  listeners : ∀ l ∈ s.app.listeners, l.provider = .streamlabs →
    Vouched codec s l.connection.mark
  jobs : ∀ job ∈ s.app.jobs, job.provider = .streamlabs →
    Vouched codec s job.connection.mark
  passes : ∀ passID pass, s.passes passID = some pass →
    PassInv codec s pass

-- =================================== growing

/-- What every step does to the histories and to what is stored: rows
are added with ids of their own, and nothing is lost. -/
structure Grows (codec : RowCodec Json) (s s' : System Json) : Prop where
  history : ∀ account, s'.history account = s.history account
    ∨ ∃ body, s'.history account = body :: s.history account
      ∧ (rowID codec body ≠ "" →
        ∀ row ∈ s.history account, rowID codec row ≠ rowID codec body)
  stored : ∀ userID sourceDonationID,
    Stored userID .streamlabs sourceDonationID s.app.db.alert →
      Stored userID .streamlabs sourceDonationID s'.app.db.alert

variable {s s' : System Json} {userID : UserID} {account : String}

theorem Grows.refl (s : System Json) : Grows codec s s :=
  ⟨fun _ => Or.inl rfl, fun _ _ h => h⟩

theorem Grows.distinct (h : Grows codec s s')
    (hd : Distinct (rowID codec) (· ≠ "") (s.history account)) :
    Distinct (rowID codec) (· ≠ "") (s'.history account) := by
  rcases h.history account with he | ⟨body, he, hnew⟩
  · rw [he]
    exact hd
  · rw [he]
    exact hd.cons hnew

theorem Grows.known (h : Grows codec s s') {checkpoint : String}
    (hk : ∃ body ∈ s.history account, rowID codec body = checkpoint) :
    ∃ body ∈ s'.history account, rowID codec body = checkpoint := by
  obtain ⟨body, hbody, he⟩ := hk
  rcases h.history account with hs | ⟨new, hs, -⟩
  · exact ⟨body, hs ▸ hbody, he⟩
  · exact ⟨body, hs ▸ List.mem_cons_of_mem new hbody, he⟩

/-- A checkpoint covers the same rows as before. -/
theorem Grows.covers (h : Grows codec s s') {checkpoint : String}
    {P Q : Json → Prop} (hnamed : checkpoint ≠ "")
    (hk : ∃ body ∈ s.history account, rowID codec body = checkpoint)
    (hc : Covers (rowID codec) P checkpoint (s.history account))
    (hPQ : ∀ body, P body → Q body) :
    Covers (rowID codec) Q checkpoint (s'.history account) := by
  refine Covers.imp ?_ hPQ
  rcases h.history account with hs | ⟨new, hs, hnew⟩
  · rw [hs]
    exact hc
  · rw [hs]
    refine hc.cons fun he => ?_
    obtain ⟨body, hbody, hid⟩ := hk
    exact hnew (he ▸ hnamed) body hbody (hid.trans he.symm)

theorem Grows.rowStored (h : Grows codec s s') (body : Json)
    (hb : RowStored codec userID s.app.db.alert body) :
    RowStored codec userID s'.app.db.alert body :=
  fun d hd => h.stored _ _ (hb d hd)

theorem Sound.grow {checkpoint : String} (h : Grows codec s s')
    (hs : Sound codec s userID account checkpoint) :
    Sound codec s' userID account checkpoint :=
  ⟨hs.named, h.known hs.known,
    h.covers hs.named hs.known hs.covers h.rowStored⟩

theorem Vouched.grow {mark : UserID × String × Option String}
    (h : Grows codec s s') (hv : Vouched codec s mark) :
    Vouched codec s' mark :=
  fun checkpoint hc => (hv checkpoint hc).grow h

theorem Finishes.grow {history : History} {checkpoint : String}
    (h : Grows codec s s')
    (hf : Finishes codec s userID account history checkpoint) :
    Finishes codec s' userID account history checkpoint :=
  ⟨hf.named, h.known hf.known, h.covers hf.named hf.known hf.covers
    fun body hb => hb.imp_left (h.rowStored body)⟩

theorem Reads.grow (h : Grows codec s s')
    (hr : Reads codec (s.history account) r) :
    Reads codec (s'.history account) r := by
  obtain ⟨read, rest, hstretch, hrest⟩ := hr
  rcases h.history account with hs | ⟨new, hs, -⟩
  · exact ⟨read, rest, hs ▸ hstretch, hrest⟩
  · exact ⟨read, rest, hs ▸ hstretch.cons new, hrest⟩

theorem PassInv.grow {pass : Pass} (h : Grows codec s s')
    (hp : PassInv codec s pass) : PassInv codec s' pass :=
  ⟨hp.vouched.grow h,
    fun r hr => ⟨(hp.reads r hr).1, (hp.reads r hr).2.grow h⟩,
    fun history hh checkpoint hc =>
      (hp.finishes history hh checkpoint hc).grow h⟩

-- =================================== reading

/-- What a reading has read, in a shape that a page extends. -/
structure Reading.Has (codec : RowCodec Json) (rows read rest : List Json)
    (r : Reading) : Prop where
  stretch : Stretch read rest rows
  head : ∀ x ∈ read.head?,
    rowID codec x ≠ "" ∧ r.newCheckpoint = some (rowID codec x)
  start : read = [] → r.newCheckpoint = none
  donations : ∀ body ∈ read, ∀ d,
    (decodeDonation codec body).donation = .ok d → d ∈ r.donations

/-- The provider answers with what is below the last row that was
read. -/
theorem Reads.answer (h : Reads codec (s.history account) r)
    (hd : Distinct (rowID codec) (· ≠ "") (s.history account)) (size : Nat) :
    ∃ read rest, r.Has codec (s.history account) read rest
      ∧ s.answer codec account r size
        = rest.take (min (max 1 size) historyPageSize) := by
  obtain ⟨read, rest, hstretch, hstart, hhead, hlast, hdonations⟩ := h
  cases hread : read.getLast? with
  | none =>
      have hnil : read = [] := List.getLast?_eq_none_iff.mp hread
      obtain ⟨hbefore, hnew⟩ := hstart hnil
      refine ⟨[], s.history account, ⟨.nil _, ?_, fun _ => hnew, ?_⟩, ?_⟩
      · exact fun x hx => nomatch hx
      · exact fun body hbody => absurd hbody List.not_mem_nil
      · unfold System.answer
        simp only [hbefore, if_true]
  | some last =>
      obtain ⟨hnamed, hbefore⟩ := hlast last hread
      obtain ⟨before, rfl⟩ := List.getLast?_eq_some_iff.mp hread
      refine ⟨before ++ [last], rest,
        ⟨hstretch, hhead, fun hnil => absurd hnil (by simp), hdonations⟩,
        ?_⟩
      unfold System.answer
      simp only [hbefore, hnamed, if_false]
      rw [hstretch.below hd hnamed]

/-- The checkpoint of a reading is the id of the first row it has read,
once there is one. -/
theorem Reading.Has.checkpoint {rows read rest data : List Json}
    {head : Json} (h : r.Has codec rows read rest)
    (hnew : r.newCheckpoint = none → rowID codec head ≠ "") :
    ∃ x read', read ++ head :: data = x :: read' ∧ rowID codec x ≠ ""
      ∧ (r.newCheckpoint <|> some (rowID codec head))
        = some (rowID codec x) := by
  cases read with
  | nil =>
      have hnone := h.start rfl
      refine ⟨head, data, rfl, hnew hnone, ?_⟩
      rw [hnone]
      rfl
  | cons x read' =>
      obtain ⟨hnamed, hc⟩ := h.head x rfl
      refine ⟨x, read' ++ head :: data, rfl, hnamed, ?_⟩
      rw [hc]
      rfl

/-- A page with which the reading goes on. -/
theorem Reads.next {rows read rest : List Json} {next : Reading} {n : Nat}
    (h : r.Has codec rows read rest)
    (hpage : r.page ((rest.take n).map (decodeDonation codec))
      = .next next) :
    next.checkpoint = r.checkpoint ∧ Reads codec rows next := by
  obtain ⟨row, more, hrows, hnew, -, hlast, hnamed, hcheckpoint,
    hnewCheckpoint, hdonations, -⟩ := Reading.page_next hpage
  refine ⟨hcheckpoint, ?_⟩
  cases htake : rest.take n with
  | nil => rw [htake] at hrows; cases hrows
  | cons head data =>
      rw [htake] at hrows
      injection hrows with hrow hmore
      subst hrow
      obtain ⟨x, read', hread, hx, hxc⟩ :
          ∃ x read', read ++ head :: data = x :: read' ∧ _ :=
        h.checkpoint hnew
      refine ⟨read ++ head :: data, rest.drop n, ?_, ?_, ?_, ?_, ?_⟩
      · rw [← htake]
        exact h.stretch.take n
      · exact fun hnil => absurd hnil (by simp)
      · intro y hy
        rw [hread] at hy
        cases hy
        exact ⟨hx, hnewCheckpoint.trans hxc⟩
      · intro last hl
        have hl' : (head :: data).getLast? = some last := by
          rw [Option.mem_def, List.getLast?_append_of_ne_nil _
            (List.cons_ne_nil head data)] at hl
          exact hl
        have hid : next.before = rowID codec last := by
          rw [hlast]
          simp only [htake]
          rw [List.getLast_map]
          exact congrArg (rowID codec)
            (List.getLast_of_getLast?_eq_some hl')
        exact ⟨hid ▸ hnamed, hid⟩
      · intro body hbody d hd
        rw [hdonations, List.mem_append]
        rcases List.mem_append.mp hbody with hbody | hbody
        · exact Or.inl (h.donations body hbody d hd)
        · refine Or.inr (mem_donated.mpr ⟨decodeDonation codec body, ?_, hd⟩)
          rw [htake]
          exact List.mem_map_of_mem hbody

/-- A page with which the reading comes to its end. -/
theorem Reads.done {read rest : List Json} {n : Nat}
    {history : History} {checkpoint : String}
    (hd : Distinct (rowID codec) (· ≠ "") (s.history account))
    (h : r.Has codec (s.history account) read rest) (hn : 0 < n)
    (hv : ∀ c ∈ r.checkpoint, Sound codec s userID account c)
    (hpage : r.page ((rest.take n).map (decodeDonation codec))
      = .done history)
    (hc : history.checkpoint = some checkpoint) :
    Finishes codec s userID account history checkpoint := by
  cases htake : rest.take n with
  | nil =>
      have hrest : rest = [] := by
        cases rest with
        | nil => rfl
        | cons body rest =>
            cases n with
            | zero => exact absurd hn (Nat.lt_irrefl 0)
            | succ n => cases htake
      rw [htake] at hpage
      injection hpage with hpage
      subst hpage
      change (r.newCheckpoint <|> r.checkpoint) = some checkpoint at hc
      cases read with
      | nil =>
          rw [h.start rfl] at hc
          have hsound := hv checkpoint hc
          exact ⟨hsound.named, hsound.known,
            hsound.covers.imp fun body hb => Or.inl hb⟩
      | cons x read =>
          obtain ⟨hnamed, hnew⟩ := h.head x rfl
          rw [hnew] at hc
          injection hc with hc
          subst hc
          refine ⟨hnamed, ⟨x, h.stretch.mem List.mem_cons_self, rfl⟩, ?_⟩
          refine h.stretch.covers hd hnamed
            (fun body hbody => Or.inr (h.donations body hbody)) ?_
          rw [hrest]
          exact fun body hbody => absurd hbody List.not_mem_nil
  | cons head data =>
      rw [htake] at hpage
      obtain ⟨hnew, hcheckpoint, before, row, after, hsplit, hmeets,
        hdonations⟩ := Reading.page_met hpage
      rw [← List.map_cons] at hsplit
      obtain ⟨first, last, hdata, hfirst, hlast⟩ :=
        List.map_eq_append_iff.mp hsplit
      obtain ⟨body, others, rfl, hbody, -⟩ := List.map_eq_cons_iff.mp hlast
      obtain ⟨x, read', hread, hx, hxc⟩ :
          ∃ x read', read ++ head :: data = x :: read' ∧ _ :=
        h.checkpoint hnew
      have he : rowID codec x = checkpoint := by
        rw [hcheckpoint] at hc
        exact Option.some.inj (hxc.symm.trans hc)
      -- the row of the old checkpoint, and all below it, are stored
      have hsound := hv row.id hmeets
      have hid : rowID codec body = row.id :=
        congrArg DecodedDonation.id hbody
      have hrest : rest = first ++ body :: (others ++ rest.drop n) := by
        conv_lhs => rw [← List.take_append_drop n rest, htake, hdata]
        simp only [List.append_assoc, List.cons_append]
      have hmet : Stretch (read ++ first)
          (body :: (others ++ rest.drop n)) (s.history account) :=
        h.stretch.move hrest
      have hstored := hmet.meets hd (hid ▸ hsound.named)
        (hid ▸ hsound.covers)
      have hstretch : Stretch (x :: read') (rest.drop n)
          (s.history account) := by
        rw [← hread, ← htake]
        exact h.stretch.take n
      subst he
      refine ⟨hx, ⟨x, hstretch.mem List.mem_cons_self, rfl⟩, ?_⟩
      refine hstretch.covers hd hx (fun y hy => ?_) fun y hy => ?_
      · rw [← hread, hdata, ← List.append_assoc] at hy
        rcases List.mem_append.mp hy with hy | hy
        · right
          intro d hd
          rw [hdonations, List.mem_append]
          rcases List.mem_append.mp hy with hy | hy
          · exact Or.inl (h.donations y hy d hd)
          · refine Or.inr (mem_donated.mpr
              ⟨decodeDonation codec y, ?_, hd⟩)
            rw [← hfirst]
            exact List.mem_map_of_mem hy
        · left
          refine hstored y ?_
          rw [← List.cons_append]
          exact List.mem_append_left _ hy
      · left
        refine hstored y (List.mem_cons_of_mem body ?_)
        exact List.mem_append_right _ hy

end StreamBrew.Streamlabs
