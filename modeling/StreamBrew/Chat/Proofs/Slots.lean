/-
Positions of chat sources, over any interleaving of the statements of
connects with disconnects and edits.

A connect holds the lock of its user from its first statement on, so no
other connect of the user commits while it runs. Disconnects and edits
may: they take sources away or leave them where they are (`Edits`), and
so a position that was chosen stays free, or stays that of the source
(`At`). The last fact about a connect before it commits is `Owns`: nothing
but its own source has its position, its name or its identifier.
-/
import StreamBrew.Chat.Slots
import StreamBrew.Lib.History

namespace StreamBrew.Chat.Slots

open Relational
open Alert (UserID)
open History (Justified)

variable {t : Txn} {effect : Written} {locks : List Lock} {draw : Nat}
  {log : List Commit} {u : Db}

-- ==================================== tables

theorem mem_liveRows {α κ : Type} {key : α → κ}
    {t : Table fun v : Version α => key v.row} {r : α} :
    r ∈ liveRows key t ↔ (⟨r, false⟩ : Version α) ∈ t := by
  show r ∈ (t.rows.filter fun v => !v.deleted).map Version.row ↔ _
  rw [List.mem_map]
  constructor
  · rintro ⟨⟨row, deleted⟩, hv, rfl⟩
    obtain ⟨hv, hlive⟩ := List.mem_filter.mp hv
    cases deleted with
    | true => cases hlive
    | false => exact hv
  · intro hr
    exact ⟨⟨r, false⟩, List.mem_filter.mpr ⟨hr, rfl⟩, rfl⟩

variable {db w : Db} {r r' v : SourceRow}

theorem mem_live : r ∈ db.live.sources ↔ ⟨r, false⟩ ∈ db.sources :=
  mem_liveRows

theorem mem_live_overlay :
    r ∈ (db.overlay w).live.sources ↔ ⟨r, false⟩ ∈ w.sources
      ∨ r ∈ db.live.sources ∧ ∀ x ∈ w.sources, sourceKey x ≠ r.sourceID :=
  calc r ∈ (db.overlay w).live.sources
    _ ↔ (⟨r, false⟩ : Version SourceRow) ∈ db.sources.overlay w.sources :=
      mem_live
    _ ↔ _ := Table.mem_overlay
    _ ↔ _ := or_congr_right (and_congr_left' mem_live.symm)

theorem overlay_sources (h : w.sources = .empty) :
    (db.overlay w).sources = db.sources := by
  show db.sources.overlay w.sources = db.sources
  rw [h, Table.overlay_empty]

theorem live_of_sources {db db' : Db} (h : db'.sources = db.sources) :
    db'.live.sources = db.live.sources := by
  show liveRows SourceRow.key db'.sources = liveRows SourceRow.key db.sources
  rw [h]

-- ==================================== places

/-- Where a source is, and what it is the source of. -/
def place (r : SourceRow) : SourceID × UserID × Provider × String × Nat :=
  (r.sourceID, r.userID, r.provider, r.providerSourceID, r.position)

/-- The sources of a user are taken away, or stay where they are. -/
def Edits (userID : UserID) (db w : Db) : Prop :=
  ∀ v, ⟨v, false⟩ ∈ w.sources → v.userID = userID →
    ∃ r ∈ db.live.sources, place r = place v

theorem Edits.live {userID : UserID} (h : Edits userID db w)
    (hr : r ∈ (db.overlay w).live.sources) (huser : r.userID = userID) :
    ∃ r₀ ∈ db.live.sources, place r₀ = place r := by
  rcases mem_live_overlay.mp hr with hr | ⟨hr, -⟩
  · exact h r hr huser
  · exact ⟨r, hr, rfl⟩

/-- The calls of one statement move no source. -/
theorem edits_perform {call : Call}
    (h : call.perform db = .ok effect) (userID : UserID) :
    Edits userID db effect.written := by
  cases call with
  | disconnect owner connectionID =>
      cases h
      intro v hv _
      simp only [Slots.disconnect] at hv
      split at hv
      case isTrue =>
        simp only [Table.mem_update] at hv
        obtain ⟨x, hx, heq⟩ := hv
        rw [if_pos trivial] at heq
        cases heq
      case isFalse => exact absurd hv Table.not_mem_empty
  | setSourceEnabled owner sourceID enabled =>
      cases h
      intro v hv _
      simp only [Slots.setSourceEnabled, Table.mem_update] at hv
      obtain ⟨x, hx, heq⟩ := hv
      rw [if_pos trivial] at heq
      obtain ⟨hx, hlive, -, -⟩ := Table.mem_select.mp hx
      obtain ⟨row, deleted⟩ := x
      cases hlive
      cases heq
      exact ⟨row, mem_live.mpr hx, rfl⟩

/-- The sources of a user have different positions, all of them slots. -/
structure Sound (db : Db) : Prop where
  position_lt : ∀ r ∈ db.live.sources, r.position < maxSources
  position_inj : ∀ r ∈ db.live.sources, ∀ r' ∈ db.live.sources,
    r.userID = r'.userID → r.position = r'.position → r = r'
  source_inj : ∀ r ∈ db.live.sources, ∀ r' ∈ db.live.sources,
    r.userID = r'.userID → r.provider = r'.provider →
      r.providerSourceID = r'.providerSourceID → r = r'

/-- What moves no source keeps the places sound. -/
theorem Sound.edits (h : Sound db) (hedits : ∀ userID, Edits userID db w) :
    Sound (db.overlay w) := by
  have heq : ∀ r ∈ (db.overlay w).live.sources,
      ∀ r' ∈ (db.overlay w).live.sources,
        r.sourceID = r'.sourceID → r = r' := fun r hr r' hr' hid =>
    Table.eq_of_key hr hr' hid
  refine ⟨fun r hr => ?_, fun r hr r' hr' huser hposition => ?_,
    fun r hr r' hr' huser hprovider hname => ?_⟩
  · obtain ⟨r₀, hr₀, hplace⟩ := (hedits _).live hr rfl
    simp only [place, Prod.mk.injEq] at hplace
    have hlt := h.position_lt r₀ hr₀
    omega
  · obtain ⟨r₀, hr₀, hplace⟩ := (hedits _).live hr rfl
    obtain ⟨r₀', hr₀', hplace'⟩ := (hedits _).live hr' rfl
    simp only [place, Prod.mk.injEq] at hplace hplace'
    obtain ⟨hid, hu, -, -, hp⟩ := hplace
    obtain ⟨hid', hu', -, -, hp'⟩ := hplace'
    have hsame := h.position_inj r₀ hr₀ r₀' hr₀'
      (hu.trans (huser.trans hu'.symm)) (hp.trans (hposition.trans hp'.symm))
    exact heq r hr r' hr' (by rw [← hid, ← hid', hsame])
  · obtain ⟨r₀, hr₀, hplace⟩ := (hedits _).live hr rfl
    obtain ⟨r₀', hr₀', hplace'⟩ := (hedits _).live hr' rfl
    simp only [place, Prod.mk.injEq] at hplace hplace'
    obtain ⟨hid, hu, hq, hn, -⟩ := hplace
    obtain ⟨hid', hu', hq', hn', -⟩ := hplace'
    have hsame := h.source_inj r₀ hr₀ r₀' hr₀'
      (hu.trans (huser.trans hu'.symm)) (hq.trans (hprovider.trans hq'.symm))
      (hn.trans (hname.trans hn'.symm))
    exact heq r hr r' hr' (by rw [← hid, ← hid', hsame])

-- ================================= positions

variable {userID : UserID} {source : SaveSource} {position : Nat}

/-- Of the sources of a user, the one that has a name is the one that has
a position. -/
def At (userID : UserID) (source : SaveSource) (position : Nat) (db : Db) :
    Prop :=
  position < maxSources ∧ ∀ r ∈ db.live.sources, r.userID = userID →
    (r.position = position ↔ IsSource userID source r)

/-- The slots below a position are taken. -/
def Lowest (userID : UserID) (position : Nat) (db : Db) : Prop :=
  position < maxSources
    ∧ (∀ r ∈ db.live.sources, r.userID = userID → r.position ≠ position)
    ∧ ∀ slot < position,
      ∃ r ∈ db.live.sources, r.userID = userID ∧ r.position = slot

/-- The position of an existing source, or the lowest free one. -/
def Takes (userID : UserID) (source : SaveSource) (position : Nat)
    (db : Db) : Prop :=
  (∃ r ∈ db.live.sources, IsSource userID source r ∧ r.position = position)
    ∨ (∀ r ∈ db.live.sources, ¬IsSource userID source r)
      ∧ Lowest userID position db

/-- There is no position for a new source. -/
def Full (userID : UserID) (source : SaveSource) (db : Db) : Prop :=
  (∀ r ∈ db.live.sources, ¬IsSource userID source r)
    ∧ ∀ slot < maxSources,
      ∃ r ∈ db.live.sources, r.userID = userID ∧ r.position = slot

/-- The chosen place is free, or that of the source itself. -/
theorem takes_sourcePosition
    (h : sourcePosition userID source db.live = some position) :
    Takes userID source position db := by
  unfold sourcePosition at h
  split at h
  case h_1 r hfind =>
    cases h
    obtain ⟨hr, his⟩ := Table.find?_eq_some hfind
    exact Or.inl ⟨r, hr, his, rfl⟩
  case h_2 hfind =>
    refine Or.inr ⟨Table.find?_eq_none.mp hfind, ?_⟩
    rw [List.find?_range_eq_some] at h
    obtain ⟨hfree, hlt, htaken⟩ := h
    refine ⟨List.mem_range.mp hlt, fun r hr huser hposition => ?_,
      fun slot hslot => ?_⟩
    · exact of_decide_eq_true hfree ⟨r, hr, huser, hposition⟩
    · have hslot' := htaken slot hslot
      simpa [Table.exists_iff] using hslot'

/-- No place is found when all are taken by others. -/
theorem sourcePosition_eq_none :
    sourcePosition userID source db.live = none
      ↔ Full userID source db := by
  unfold sourcePosition
  split
  case h_1 r hfind =>
    obtain ⟨hr, his⟩ := Table.find?_eq_some hfind
    exact iff_of_false (fun h => nomatch h) fun h => h.1 r hr his
  case h_2 hfind =>
    have hnone := Table.find?_eq_none.mp hfind
    rw [List.find?_eq_none]
    constructor
    · intro h
      refine ⟨hnone, fun slot hslot => ?_⟩
      have htaken := h slot (List.mem_range.mpr hslot)
      simpa [Table.exists_iff] using htaken
    · rintro ⟨-, h⟩ slot hslot
      obtain ⟨r, hr, huser, hposition⟩ := h slot (List.mem_range.mp hslot)
      simpa using ⟨r, hr, huser, hposition⟩

theorem Takes.at (h : Takes userID source position db) (hdb : Sound db) :
    At userID source position db := by
  rcases h with ⟨r, hr, his, rfl⟩ | ⟨hnone, hlt, hfree, -⟩
  · refine ⟨hdb.position_lt r hr, fun r' hr' huser =>
      ⟨fun heq => ?_, fun his' => ?_⟩⟩
    · rw [hdb.position_inj r' hr' r hr (huser.trans his.1.symm) heq]
      exact his
    · rw [hdb.source_inj r' hr' r hr (his'.1.trans his.1.symm)
        (his'.2.1.trans his.2.1.symm) (his'.2.2.trans his.2.2.symm)]
  · refine ⟨hlt, fun r hr huser => ⟨fun heq => ?_, fun his => ?_⟩⟩
    · exact absurd heq (hfree r hr huser)
    · exact absurd his (hnone r hr)

theorem At.edits (h : At userID source position db)
    (hedits : Edits userID db w) :
    At userID source position (db.overlay w) := by
  refine ⟨h.1, fun r hr huser => ?_⟩
  obtain ⟨r₀, hr₀, hplace⟩ := hedits.live hr huser
  simp only [place, Prod.mk.injEq] at hplace
  obtain ⟨-, hu, hq, hn, hp⟩ := hplace
  have hiff := h.2 r₀ hr₀ (hu.trans huser)
  unfold IsSource at hiff ⊢
  rw [← hp, hiff, hu, hq, hn]

-- =================================== commits

/-- What was committed, laid over empty tables. -/
def replay (log : List Commit) : Db :=
  log.foldl (fun db c => db.overlay c.written) .empty

theorem replay_snoc (log : List Commit) (c : Commit) :
    replay (log ++ [c]) = (replay log).overlay c.written :=
  List.foldl_concat ..

/-- Not a connect of the user. -/
def Beside (userID : UserID) (c : Commit) : Prop :=
  ∀ t : Txn, c.source = .inr t → t.userID ≠ userID

/-- A position that was chosen with no connect of the user committed
since. -/
def Chosen (log : List Commit) (t : Txn) (position : Nat) : Prop :=
  ∃ earlier middle, log = earlier ++ middle
    ∧ (∀ c ∈ middle, Beside t.userID c)
    ∧ Takes t.userID t.source position (replay earlier)

theorem Chosen.snoc {c : Commit}
    (h : Chosen log t position) (hc : Beside t.userID c) :
    Chosen (log ++ [c]) t position := by
  obtain ⟨earlier, middle, rfl, hmiddle, htakes⟩ := h
  refine ⟨earlier, middle ++ [c], List.append_assoc .., fun d hd => ?_, htakes⟩
  rcases List.mem_append.mp hd with hd | hd
  · exact hmiddle d hd
  · rw [List.mem_singleton.mp hd]
    exact hc

/-- The version a connect saves is that of its own source, or of a new
one. -/
structure Owns (userID : UserID) (source : SaveSource) (db : Db)
    (v : SourceRow) : Prop where
  isSource : IsSource userID source v
  own : ∀ r ∈ db.live.sources, IsSource userID source r →
    r.sourceID = v.sourceID
  replaces : ∀ x ∈ db.sources, sourceKey x = v.sourceID →
    x.deleted = false ∧ IsSource userID source x.row

/-- A row at its place keeps the table sound. -/
theorem Sound.overlay (h : Sound db) (hv : Owns userID source db v)
    (hat : At userID source v.position db)
    (hw : w.sources = .row _ ⟨v, false⟩) : Sound (db.overlay w) := by
  have hlive : ∀ r ∈ (db.overlay w).live.sources,
      r = v ∨ r ∈ db.live.sources ∧ ¬IsSource userID source r := by
    intro r hr
    rcases mem_live_overlay.mp hr with hr | ⟨hr, hne⟩
    · rw [hw, Table.mem_row] at hr
      exact Or.inl (congrArg Version.row hr)
    · refine Or.inr ⟨hr, fun his => ?_⟩
      rw [hw] at hne
      exact hne _ (Table.mem_row.mpr rfl) (hv.own r hr his).symm
  have huser := hv.isSource.1
  refine ⟨fun r hr => ?_, fun r hr r' hr' hu hp => ?_,
    fun r hr r' hr' hu hq hn => ?_⟩
  · rcases hlive r hr with rfl | ⟨hr, -⟩
    · exact hat.1
    · exact h.position_lt r hr
  · rcases hlive r hr with rfl | ⟨hr, his⟩
    · rcases hlive r' hr' with rfl | ⟨hr', his'⟩
      · rfl
      · exact absurd ((hat.2 r' hr' (hu.symm.trans huser)).mp hp.symm) his'
    · rcases hlive r' hr' with rfl | ⟨hr', his'⟩
      · exact absurd ((hat.2 r hr (hu.trans huser)).mp hp) his
      · exact h.position_inj r hr r' hr' hu hp
  · obtain ⟨-, hprovider, hname⟩ := hv.isSource
    rcases hlive r hr with rfl | ⟨hr, his⟩
    · rcases hlive r' hr' with rfl | ⟨hr', his'⟩
      · rfl
      · exact absurd ⟨hu.symm.trans huser, hq.symm.trans hprovider,
          hn.symm.trans hname⟩ his'
    · rcases hlive r' hr' with rfl | ⟨hr', his'⟩
      · exact absurd ⟨hu.trans huser, hq.trans hprovider, hn.trans hname⟩ his
      · exact h.source_inj r hr r' hr' hu hq hn

/-- What a connect commits. -/
def Placed (before : List Commit) (c : Commit) : Prop :=
  ∀ t : Txn, c.source = .inr t →
    ∃ v, t.stage = .done v.position v.sourceID
      ∧ c.written.sources = .row _ ⟨v, false⟩
      ∧ Owns t.userID t.source (replay before) v
      ∧ At t.userID t.source v.position (replay before)
      ∧ Chosen before t v.position

-- ================================ statements

theorem saveConnection_ok
    {stage : Stage} (h : t.saveConnection db draw = .ok (effect, stage)) :
    effect.written.sources = .empty
      ∧ ∃ connectionID, stage = .position connectionID := by
  simp only [Txn.saveConnection] at h
  split at h
  case isTrue => cases h
  case isFalse =>
    split at h
    case h_1 =>
      split at h
      case isTrue => cases h
      case isFalse => cases h; exact ⟨rfl, _, rfl⟩
    case h_2 =>
      split at h
      case isTrue => cases h
      case isFalse => cases h; exact ⟨rfl, _, rfl⟩

/-- The source is written at the chosen place. -/
theorem saveSource_ok {connectionID : ConnectionID} {stage : Stage}
    (h : t.saveSource db connectionID position draw = .ok (effect, stage))
    (hdb : Sound db) (hat : At t.userID t.source position db) :
    ∃ v, v.position = position ∧ stage = .done v.position v.sourceID
      ∧ effect.written.sources = .row _ ⟨v, false⟩
      ∧ Owns t.userID t.source db v := by
  simp only [Txn.saveSource] at h
  split at h
  case isTrue => cases h
  case isFalse =>
    split at h
    case h_1 hfind =>
      have hnone := Table.find?_eq_none.mp hfind
      split at h
      case isTrue => cases h
      case isFalse hdrawn =>
        split at h
        case isTrue => cases h
        case isFalse =>
          cases h
          refine ⟨_, rfl, rfl, rfl, ⟨rfl, rfl, rfl⟩, fun r hr his => ?_,
            fun x hx hkey => ?_⟩
          · exact absurd his (hnone r hr)
          · exact absurd ⟨x, hx, hkey⟩ hdrawn
    case h_2 current hfind =>
      obtain ⟨hcurrent, his⟩ := Table.find?_eq_some hfind
      cases h
      have hposition : current.position = position :=
        (hat.2 current hcurrent his.1).mpr his
      refine ⟨t.source.repoint connectionID current, hposition, ?_, rfl, his,
        fun r hr his' => ?_, fun x hx hkey => ?_⟩
      · rw [← hposition]
        rfl
      · have heq := hdb.source_inj r hr current hcurrent
          (his'.1.trans his.1.symm) (his'.2.1.trans his.2.1.symm)
          (his'.2.2.trans his.2.2.symm)
        rw [heq]
        rfl
      · rw [Table.eq_of_key hx (mem_live.mp hcurrent) hkey]
        exact ⟨rfl, his⟩

-- ================================ invariants

/-- How far a connect has come. -/
inductive Progress (log : List Commit) (db : Db) (t : Txn) (w : Db)
    (locks : List Lock) : Prop
  | lock (hstage : t.stage = .lock) (hw : w = .empty)
  | connection (hstage : t.stage = .connection)
      (hlock : .user t.userID ∈ locks) (hw : w = .empty)
  | position {connectionID : ConnectionID}
      (hstage : t.stage = .position connectionID)
      (hlock : .user t.userID ∈ locks) (hw : w.sources = .empty)
  | source {connectionID : ConnectionID} {position : Nat}
      (hstage : t.stage = .source connectionID position)
      (hlock : .user t.userID ∈ locks) (hw : w.sources = .empty)
      (hat : At t.userID t.source position db)
      (hchosen : Chosen log t position)
  | done {v : SourceRow} (hstage : t.stage = .done v.position v.sourceID)
      (hlock : .user t.userID ∈ locks)
      (hw : w.sources = .row _ ⟨v, false⟩) (hv : Owns t.userID t.source db v)
      (hat : At t.userID t.source v.position db)
      (hchosen : Chosen log t v.position)

theorem Owns.edits (h : Owns userID source db v)
    (hedits : Edits userID db w)
    (hapart : ∀ x ∈ w.sources, sourceKey x ≠ v.sourceID) :
    Owns userID source (db.overlay w) v := by
  refine ⟨h.isSource, fun r hr his => ?_, fun x hx hkey => ?_⟩
  · obtain ⟨r₀, hr₀, hplace⟩ := hedits.live hr his.1
    simp only [place, Prod.mk.injEq] at hplace
    obtain ⟨hid, hu, hq, hn, -⟩ := hplace
    rw [← hid]
    exact h.own r₀ hr₀ ⟨hu.trans his.1, hq.trans his.2.1, hn.trans his.2.2⟩
  · rcases Table.mem_overlay.mp hx with hx | ⟨hx, -⟩
    · exact absurd hkey (hapart x hx)
    · exact h.replaces x hx hkey

/-- A connect that holds its lock stays where it is with a commit that
leaves the sources of its user where they are. -/
theorem Progress.stable {c : Commit} (h : Progress log db t u locks)
    (hbeside : .user t.userID ∈ locks →
      Beside t.userID c ∧ Edits t.userID db c.written)
    (hapart : u.Apart c.written) :
    Progress (log ++ [c]) (db.overlay c.written) t u locks := by
  cases h with
  | lock hstage hw => exact .lock hstage hw
  | connection hstage hlock hw => exact .connection hstage hlock hw
  | position hstage hlock hw => exact .position hstage hlock hw
  | source hstage hlock hw hat hchosen =>
      obtain ⟨hc, hedits⟩ := hbeside hlock
      exact .source hstage hlock hw (hat.edits hedits) (hchosen.snoc hc)
  | @done v hstage hlock hw hv hat hchosen =>
      obtain ⟨hc, hedits⟩ := hbeside hlock
      refine .done hstage hlock hw (hv.edits hedits fun x hx => ?_)
        (hat.edits hedits) (hchosen.snoc hc)
      have hmem : ⟨v, false⟩ ∈ u.sources := by
        rw [hw]
        exact Table.mem_row.mpr rfl
      exact (hapart.2.ne hmem hx).symm

/-- What is known of committed rows and of open transactions. -/
def facts : Sessions.Facts Db Lock Call Txn where
  good log db := db = replay log ∧ Sound db ∧ Justified Placed log
  held log db s := Progress log db s.txn s.written s.locks

theorem Sound.congr (h : Sound db) (heq : w.sources = db.sources) :
    Sound w := by
  obtain ⟨connections, sources⟩ := w
  cases heq
  exact ⟨h.position_lt, h.position_inj, h.source_inj⟩

theorem Owns.congr (h : Owns userID source w v)
    (heq : w.sources = db.sources) : Owns userID source db v := by
  obtain ⟨connections, sources⟩ := w
  cases heq
  exact ⟨h.isSource, h.own, h.replaces⟩

/-- One more statement of a connect. -/
theorem Progress.statement {t' : Txn} {statement}
    (h : Progress log db t u locks) (hlog : db = replay log)
    (hdb : Sound db) (hnext : t.statement = some statement)
    (hok : statement (db.overlay u) draw = .ok (effect, t')) :
    Progress log db t' (u.overlay effect.written) (locks ++ effect.locks) := by
  obtain ⟨userID, connection, source, stage⟩ := t
  have hview (hu : u.sources = .empty) :
      (db.overlay u).sources = db.sources := overlay_sources hu
  cases h with
  | lock hstage hw =>
      cases hstage
      cases hnext
      cases hok
      refine .connection rfl ?_ ?_
      · exact List.mem_append_right _ List.mem_cons_self
      · rw [hw]
        exact Sessions.Versioned.overlay_empty _
  | connection hstage hlock hw =>
      cases hstage
      cases hnext
      obtain ⟨r, hr, he⟩ := map_eq_ok hok
      cases he
      obtain ⟨hwrites, connectionID, hnextStage⟩ := saveConnection_ok hr
      refine .position hnextStage (List.mem_append_left _ hlock) ?_
      rw [hw]
      exact (Table.empty_overlay _).trans hwrites
  | position hstage hlock hw =>
      cases hstage
      cases hnext
      obtain ⟨r, hr, he⟩ := map_eq_ok hok
      cases he
      simp only [Txn.choosePosition] at hr
      split at hr
      case h_1 => cases hr
      case h_2 position hposition =>
        cases hr
        have htakes := takes_sourcePosition hposition
        rw [Takes, Lowest, live_of_sources (hview hw)] at htakes
        refine .source rfl (List.mem_append_left _ hlock) ?_
          (Takes.at htakes hdb) ⟨log, [], (List.append_nil _).symm, nofun, ?_⟩
        · rw [show (u.overlay .empty).sources = u.sources from
            Table.overlay_empty _, hw]
        · rw [← hlog]
          exact htakes
  | @source connectionID position hstage hlock hw hat hchosen =>
      cases hstage
      cases hnext
      obtain ⟨r, hr, he⟩ := map_eq_ok hok
      cases he
      have hat' : At userID source position (db.overlay u) := by
        rw [At, live_of_sources (hview hw)]
        exact hat
      obtain ⟨v, rfl, hnextStage, hwrites, hv⟩ :=
        saveSource_ok hr (hdb.congr (hview hw)) hat'
      refine .done hnextStage (List.mem_append_left _ hlock) ?_
        (hv.congr (hview hw)) hat hchosen
      rw [show (u.overlay r.1.written).sources
        = u.sources.overlay r.1.written.sources from rfl, hw, hwrites,
        Table.empty_overlay]
  | done hstage =>
      cases hstage
      cases hnext

/-- What a connect commits, and that it is at its end. -/
theorem Progress.commit (h : Progress log db t u locks)
    (hend : t.statement = none) :
    .user t.userID ∈ locks ∧ ∃ v, t.stage = .done v.position v.sourceID
      ∧ u.sources = .row _ ⟨v, false⟩ ∧ Owns t.userID t.source db v
      ∧ At t.userID t.source v.position db ∧ Chosen log t v.position := by
  cases h with
  | lock hstage | connection hstage | position hstage | source hstage =>
      rw [Txn.statement, hstage] at hend
      cases hend
  | done hstage hlock hw hv hat hchosen =>
      exact ⟨hlock, _, hstage, hw, hv, hat, hchosen⟩

/-- No step of a session breaks the facts. -/
theorem facts_inductive : Sessions.Inductive programs facts where
  call := by
    rintro log db call effect ⟨hlog, hdb, hplaced⟩ hcall
    refine ⟨?_, hdb.edits (edits_perform hcall), hplaced.snoc ?_⟩
    · rw [replay_snoc, ← hlog]
      rfl
    · exact fun t ht => nomatch ht
  start _ hfresh := by
    simp only [programs, Bool.and_eq_true, decide_eq_true_eq] at hfresh
    exact .lock hfresh.1 rfl
  statement hgood hheld hnext hok :=
    Progress.statement hheld hgood.1 hgood.2.1 hnext hok
  commit := by
    rintro log db s ⟨hlog, hdb, hplaced⟩ hheld hend
    obtain ⟨-, v, hstage, hw, hv, hat, hchosen⟩ := Progress.commit hheld hend
    refine ⟨?_, hdb.overlay hv hat hw, hplaced.snoc ?_⟩
    · rw [replay_snoc, ← hlog]
      rfl
    · intro t ht
      cases ht
      rw [← hlog]
      exact ⟨v, hstage, hw, hv, hat, hchosen⟩
  stable_call _ hheld hcall hlets := by
    refine Progress.stable hheld (fun _ => ⟨?_, edits_perform hcall _⟩) hlets.1
    exact fun t ht => nomatch ht
  stable_commit := by
    intro log db s t _ hheld hother hend hlets
    obtain ⟨hlock', v, -, hw, hv, -⟩ := Progress.commit hother hend
    refine Progress.stable hheld (fun hlock => ?_) hlets.1
    have hne : t.txn.userID ≠ s.txn.userID := by
      intro heq
      have hcompatible := hlets.2 _ hlock _ hlock'
      rw [heq] at hcompatible
      simp [programs] at hcompatible
    refine ⟨fun u hu => ?_, fun r hr huser => ?_⟩
    · cases hu
      exact hne
    · rw [hw, Table.mem_row] at hr
      cases hr
      exact absurd (hv.isSource.1.symm.trans huser) hne

-- ================================== accounts

theorem mem_live_connections {r : Connection} :
    r ∈ db.live.connections ↔ ⟨r, false⟩ ∈ db.connections := mem_liveRows

theorem mem_connections_overlay {r : Connection} :
    r ∈ (db.overlay w).live.connections ↔ ⟨r, false⟩ ∈ w.connections
      ∨ r ∈ db.live.connections
        ∧ ∀ x ∈ w.connections, connectionKey x ≠ r.connectionID :=
  calc r ∈ (db.overlay w).live.connections
    _ ↔ (⟨r, false⟩ : Version Connection)
          ∈ db.connections.overlay w.connections := mem_live_connections
    _ ↔ _ := Table.mem_overlay
    _ ↔ _ := or_congr_right (and_congr_left' mem_live_connections.symm)

/-- Two rows of one provider account. -/
def SameAccount (r r' : Connection) : Prop :=
  r.provider = r'.provider ∧ r.providerUserID = r'.providerUserID

/-- An account is connected once. -/
def AccountsOnce (db : Db) : Prop :=
  ∀ r ∈ db.live.connections, ∀ r' ∈ db.live.connections,
    SameAccount r r' → r = r'

/-- The accounts that a transaction writes are its own. -/
structure Accounts (db w : Db) (locks : List Lock) : Prop where
  once : ∀ r r', ⟨r, false⟩ ∈ w.connections → ⟨r', false⟩ ∈ w.connections →
    SameAccount r r' → r = r'
  locked : ∀ r, ⟨r, false⟩ ∈ w.connections →
    .account r.provider r.providerUserID ∈ locks
  own : ∀ r, ⟨r, false⟩ ∈ w.connections → ∀ r' ∈ db.live.connections,
    SameAccount r r' → r'.connectionID = r.connectionID

theorem accounts_of_none (h : w.connections = .empty) :
    Accounts db w locks := by
  have hnone {r : Connection} : ⟨r, false⟩ ∉ w.connections := by
    rw [h]
    exact Table.not_mem_empty
  exact ⟨fun _ _ hr => absurd hr hnone, fun _ hr => absurd hr hnone,
    fun _ hr => absurd hr hnone⟩

theorem Accounts.congr {locks' : List Lock} {w' : Db}
    (h : Accounts db w locks) (hw : w'.connections = w.connections)
    (hlocks : locks ⊆ locks') : Accounts db w' locks' := by
  refine ⟨fun r r' hr hr' => ?_, fun r hr => ?_, fun r hr => ?_⟩
  · exact h.once r r' (hw ▸ hr) (hw ▸ hr')
  · exact hlocks (h.locked r (hw ▸ hr))
  · exact h.own r (hw ▸ hr)

theorem AccountsOnce.overlay (h : AccountsOnce db)
    (hw : Accounts db w locks) : AccountsOnce (db.overlay w) := by
  intro r hr r' hr' hsame
  rcases mem_connections_overlay.mp hr with hr | ⟨hr, hne⟩
  · rcases mem_connections_overlay.mp hr' with hr' | ⟨hr', hne'⟩
    · exact hw.once r r' hr hr' hsame
    · exact absurd (hw.own r hr r' hr' hsame).symm (hne' _ hr)
  · rcases mem_connections_overlay.mp hr' with hr' | ⟨hr', hne'⟩
    · have hsame' : SameAccount r' r := ⟨hsame.1.symm, hsame.2.symm⟩
      exact absurd (hw.own r' hr' r hr hsame').symm (hne _ hr')
    · exact h r hr r' hr' hsame

theorem Accounts.overlay (h : Accounts db w locks)
    (hu : ∀ r, ⟨r, false⟩ ∈ u.connections →
      .account r.provider r.providerUserID ∉ locks) :
    Accounts (db.overlay u) w locks := by
  refine ⟨h.once, h.locked, fun r hr r' hr' hsame => ?_⟩
  rcases mem_connections_overlay.mp hr' with hr' | ⟨hr', -⟩
  · have hlocked := h.locked r hr
    rw [hsame.1, hsame.2] at hlocked
    exact absurd hlocked (hu r' hr')
  · exact h.own r hr r' hr' hsame

/-- Disconnects and edits write no connection that is not deleted. -/
theorem perform_connections {call : Call}
    (h : call.perform db = .ok effect) (r : Connection) :
    ⟨r, false⟩ ∉ effect.written.connections := by
  cases call with
  | disconnect owner connectionID =>
      cases h
      intro hr
      simp only [Slots.disconnect] at hr
      split at hr
      case isTrue =>
        simp only [Table.mem_update] at hr
        obtain ⟨x, hx, heq⟩ := hr
        rw [if_pos trivial] at heq
        cases heq
      case isFalse => exact absurd hr Table.not_mem_empty
  | setSourceEnabled owner sourceID enabled =>
      cases h
      exact Table.not_mem_empty

/-- The statement locks the account that it writes. -/
theorem saveConnection_accounts
    {stage : Stage} (h : t.saveConnection db draw = .ok (effect, stage))
    (hdb : AccountsOnce db) :
    Accounts db effect.written effect.locks := by
  simp only [Txn.saveConnection] at h
  split at h
  case isTrue => cases h
  case isFalse =>
    split at h
    case h_1 hfind =>
      have hnone := Table.find?_eq_none.mp hfind
      split at h
      case isTrue => cases h
      case isFalse =>
        cases h
        refine ⟨fun r r' hr hr' _ => ?_, fun r hr => ?_,
          fun r hr r' hr' hsame => ?_⟩
        · rw [Table.mem_row] at hr hr'
          exact congrArg Version.row (hr.trans hr'.symm)
        · cases Table.mem_row.mp hr
          exact List.mem_cons_self
        · cases Table.mem_row.mp hr
          exact absurd ⟨hsame.1.symm, hsame.2.symm⟩ (hnone r' hr')
    case h_2 current hfind =>
      obtain ⟨hcurrent, hprovider, hname⟩ := Table.find?_eq_some hfind
      split at h
      case isTrue => cases h
      case isFalse =>
        cases h
        refine ⟨fun r r' hr hr' _ => ?_, fun r hr => ?_,
          fun r hr r' hr' hsame => ?_⟩
        · rw [Table.mem_row] at hr hr'
          exact congrArg Version.row (hr.trans hr'.symm)
        · cases Table.mem_row.mp hr
          refine List.mem_cons.mpr (Or.inl ?_)
          rw [← hprovider, ← hname]
          rfl
        · cases Table.mem_row.mp hr
          rw [hdb r' hr' current hcurrent ⟨hsame.1.symm, hsame.2.symm⟩]
          rfl

/-- No other statement writes connections. -/
theorem statement_connections {t' : Txn} {statement}
    (hnext : t.statement = some statement)
    (hok : statement db draw = .ok (effect, t'))
    (hstage : t.stage ≠ .connection) :
    effect.written.connections = .empty := by
  obtain ⟨userID, connection, source, stage⟩ := t
  cases stage with
  | lock => cases hnext; cases hok; rfl
  | connection => exact absurd rfl hstage
  | position connectionID =>
      cases hnext
      obtain ⟨r, hr, he⟩ := map_eq_ok hok
      cases he
      simp only [Txn.choosePosition] at hr
      split at hr
      case h_1 => cases hr
      case h_2 => cases hr; rfl
  | source connectionID position =>
      cases hnext
      obtain ⟨r, hr, he⟩ := map_eq_ok hok
      cases he
      simp only [Txn.saveSource] at hr
      split at hr
      case isTrue => cases hr
      case isFalse =>
        split at hr
        case h_1 =>
          split at hr
          case isTrue => cases hr
          case isFalse =>
            split at hr
            case isTrue => cases hr
            case isFalse => cases hr; rfl
        case h_2 => cases hr; rfl
  | done position sourceID => cases hnext

/-- The same, of accounts alone. -/
def accounts : Sessions.Facts Db Lock Call Txn where
  good _ db := AccountsOnce db
  held _ db s := Accounts db s.written s.locks

/-- No step of a session breaks this. -/
theorem accounts_inductive : Sessions.Given programs facts accounts where
  call := by
    rintro log db call effect ⟨-, hdb⟩ hcall
    have hnone := perform_connections hcall
    have heffect : Accounts db effect.written [] :=
      ⟨fun r _ hr => absurd hr (hnone r), fun r hr => absurd hr (hnone r),
        fun r hr => absurd hr (hnone r)⟩
    exact hdb.overlay heffect
  start _ _ := accounts_of_none rfl
  statement := by
    rintro log db s statement draw effect txn ⟨-, hdb⟩ ⟨hprogress, hs⟩
      hnext hok
    obtain ⟨sessionID, ⟨userID, connection, source, stage⟩, w, locks⟩ := s
    by_cases hstage : stage = .connection
    · have hw : w = .empty := by
        cases hprogress with
        | lock h | position h | source h | done h => cases h.symm.trans hstage
        | connection _ _ hw => exact hw
      subst hw hstage
      cases hnext
      obtain ⟨r, hr, he⟩ := map_eq_ok hok
      cases he
      have hr : Txn.saveConnection ⟨userID, connection, source, .connection⟩
          (db.overlay .empty) draw = .ok r := hr
      have hview : db.overlay .empty = db :=
        Sessions.Versioned.overlay_empty db
      rw [hview] at hr
      refine (saveConnection_accounts hr hdb).congr ?_
        (List.subset_append_right _ _)
      exact Table.empty_overlay _
    · have hnone := statement_connections hnext hok hstage
      refine hs.congr ?_ (List.subset_append_left _ _)
      show w.connections.overlay effect.written.connections = w.connections
      rw [hnone, Table.overlay_empty]
  commit := by
    rintro log db s ⟨-, hdb⟩ ⟨-, hs⟩ -
    exact hdb.overlay hs
  stable_call := by
    rintro log db s call effect - ⟨-, hs⟩ hcall hlets
    exact hs.overlay fun r hr => absurd hr (perform_connections hcall r)
  stable_commit := by
    rintro log db s t - ⟨-, hs⟩ ⟨-, ht⟩ - hlets
    refine hs.overlay fun r hr hlock => ?_
    have hcompatible := hlets.2 _ hlock _ (ht.locked r hr)
    simp [programs] at hcompatible

-- =================================== results

/-- The facts hold in every reachable world. -/
theorem reachable_facts {w : World} (h : Reachable w) :
    facts.On w ∧ accounts.On w := by
  have hsound : Sound .empty := by
    have hnone {r : SourceRow} : r ∉ Db.empty.live.sources :=
      fun hr => absurd (mem_live.mp hr) Table.not_mem_empty
    exact ⟨fun _ hr => absurd hr hnone, fun _ hr => absurd hr hnone,
      fun _ hr => absurd hr hnone⟩
  have honce : AccountsOnce .empty :=
    fun _ hr => absurd (mem_live_connections.mp hr) Table.not_mem_empty
  have hboth := (facts_inductive.and accounts_inductive).reachable
    ⟨⟨rfl, hsound, History.justified_nil⟩, honce⟩ h
  exact ⟨⟨hboth.1.1, fun s hs => (hboth.2 s hs).1⟩,
    hboth.1.2, fun s hs => (hboth.2 s hs).2⟩

/-- A connect that was committed: the source it saved has the position
that its rows had before, if there were any, and that was theirs or the
lowest free one when it was chosen. -/
def Connects (before : List Commit) (c : Commit) : Prop :=
  ∀ t : Txn, c.source = .inr t →
    ∃ v, t.stage = .done v.position v.sourceID
      ∧ c.written.sources = .row _ ⟨v, false⟩
      ∧ IsSource t.userID t.source v
      ∧ (∀ r ∈ (replay before).live.sources, IsSource t.userID t.source r →
          r.sourceID = v.sourceID ∧ r.position = v.position)
      ∧ (∀ x ∈ (replay before).sources, sourceKey x = v.sourceID →
          x.deleted = false ∧ IsSource t.userID t.source x.row)
      ∧ Chosen before t v.position

theorem Placed.connects {before : List Commit} {c : Commit}
    (h : Placed before c) : Connects before c := by
  intro t ht
  obtain ⟨v, hstage, hw, hv, hat, hchosen⟩ := h t ht
  refine ⟨v, hstage, hw, hv.isSource, fun r hr his => ⟨hv.own r hr his, ?_⟩,
    hv.replaces, hchosen⟩
  exact (hat.2 r hr his.1).mpr his

/-- The next statement of a session fails with an error, and ends it with
the tables as they were. -/
def Refused (w : World) (s : Session) (draw : Nat) (e : StoreError) : Prop :=
  w.attempt programs (.proceed s.sessionID draw)
      = some ⟨.inr s.txn, w.view s, .error e⟩
    ∧ Sessions.step programs w (.proceed s.sessionID draw)
      = w.drop s.sessionID
    ∧ (w.drop s.sessionID).db = w.db

theorem refused {w : World} {s : Session} (hs : s ∈ w.sessions)
    {statement} (hnext : programs.statement s.txn = some statement)
    {e : StoreError} (herror : statement (w.view s) draw = .error e) :
    Refused w s draw e := by
  refine ⟨?_, Sessions.step_failed hs hnext herror, rfl⟩
  rw [Sessions.attempt_proceed hs hnext, herror]
  rfl

/-- Without a free place the call is refused. -/
theorem limit_refused {w : World} {s : Session} (hs : s ∈ w.sessions)
    (hprogress : Progress w.log w.db s.txn s.written s.locks)
    {connectionID : ConnectionID}
    (hstage : s.txn.stage = .position connectionID)
    (hfull : Full s.txn.userID s.txn.source w.db) (draw : Nat) :
    Refused w s draw .chatSourceLimitReached := by
  have hw : s.written.sources = .empty := by
    cases hprogress with
    | lock h | connection h | source h | done h => cases h.symm.trans hstage
    | position _ _ hw => exact hw
  have hfull' : Full s.txn.userID s.txn.source (w.view s) := by
    have hview : (w.view s).sources = w.db.sources := overlay_sources hw
    rw [Full, live_of_sources hview]
    exact hfull
  have hnext : programs.statement s.txn = s.txn.statement := rfl
  rw [Txn.statement, hstage] at hnext
  refine refused hs hnext ?_
  simp only [Txn.choosePosition, sourcePosition_eq_none.mpr hfull']
  rfl

/-- An account of another user is refused. -/
theorem elsewhere_refused {w : World} {s : Session} (hs : s ∈ w.sessions)
    (hprogress : Progress w.log w.db s.txn s.written s.locks)
    (honce : AccountsOnce w.db) (hstage : s.txn.stage = .connection)
    {r : Connection} (hr : r ∈ w.db.live.connections)
    (haccount : r.provider = s.txn.connection.provider
      ∧ r.providerUserID = s.txn.connection.providerUserID)
    (huser : r.userID ≠ s.txn.userID) (draw : Nat) :
    Refused w s draw
      (if (s.txn.connection.row s.txn.userID draw).Checked
        then .providerAccountConnectedElsewhere else .database) := by
  have hw : s.written = .empty := by
    cases hprogress with
    | lock h | position h | source h | done h => cases h.symm.trans hstage
    | connection _ _ hw => exact hw
  have hview : w.view s = w.db := by
    rw [Sessions.World.view, hw]
    exact Sessions.Versioned.overlay_empty w.db
  have hnext : programs.statement s.txn = s.txn.statement := rfl
  rw [Txn.statement, hstage] at hnext
  refine refused hs hnext ?_
  rw [hview]
  simp only [Txn.saveConnection]
  split
  case isTrue => rfl
  case isFalse hchecked =>
    split
    case h_1 hfind => exact absurd haccount (Table.find?_eq_none.mp hfind r hr)
    case h_2 current hfind =>
      obtain ⟨hcurrent, hprovider, hname⟩ := Table.find?_eq_some hfind
      have heq : current = r := honce current hcurrent r hr
        ⟨hprovider.trans haccount.1.symm, hname.trans haccount.2.symm⟩
      rw [heq, if_pos huser, if_pos (not_not.mp hchecked)]
      rfl

/-- Slots of chat sources, in every world that some interleaving leads to:
the positions of a user's sources are different slots; every connect that
was committed kept the position of its source or took the lowest free one;
and a connect that finds no slot, or an account of another user, fails
with its error and leaves all rows as they were. -/
theorem saveProviderAccount_slots {w : World} (h : Reachable w) :
    Sound w.db
      ∧ w.db = replay w.log
      ∧ Justified Connects w.log
      ∧ ∀ s ∈ w.sessions, ∀ draw,
        (∀ connectionID, s.txn.stage = .position connectionID →
          Full s.txn.userID s.txn.source w.db →
          Refused w s draw .chatSourceLimitReached)
        ∧ (s.txn.stage = .connection →
          (∃ r ∈ w.db.live.connections,
            (r.provider = s.txn.connection.provider
              ∧ r.providerUserID = s.txn.connection.providerUserID)
            ∧ r.userID ≠ s.txn.userID) →
          Refused w s draw
            (if (s.txn.connection.row s.txn.userID draw).Checked
              then .providerAccountConnectedElsewhere else .database)) := by
  obtain ⟨⟨⟨hlog, hsound, hplaced⟩, hprogress⟩, honce, -⟩ := reachable_facts h
  refine ⟨hsound, hlog, hplaced.imp fun _ _ => Placed.connects,
    fun s hs draw => ⟨fun connectionID hstage hfull => ?_, fun hstage => ?_⟩⟩
  · exact limit_refused hs (hprogress s hs) hstage hfull draw
  · rintro ⟨r, hr, haccount, huser⟩
    exact elsewhere_refused hs (hprogress s hs) honce hstage hr haccount
      huser draw

section Witness

/-- The connect of a blog. -/
def blogTxn (userID : UserID) (blog : String) : Txn where
  userID
  connection :=
    { provider := .boosty, providerUserID := blog, displayName := "Blog"
      accessToken := "", refreshToken := "", oauthDeviceID := ""
      accessTokenExpiresAt := none, scopes := [] }
  source :=
    { provider := .boosty, providerSourceID := blog, displayName := "Blog"
      sourceURL := "https://boosty.to/blog" }
  stage := .lock

/-- A user connects a blog, and nobody else runs. -/
def connected (userID : UserID) (blog : String) (id : Nat) :
    List (Sessions.Action Call Txn Nat) :=
  .start 0 (blogTxn userID blog) :: List.replicate 5 (.proceed 0 id)

/-- One user has connected the blog, and another one is about to. -/
def blogConnected : World :=
  Run.run (Sessions.step programs) (Sessions.World.init .empty)
    (connected 1 "blog" 7
      ++ [.start 0 (blogTxn 2 "blog"), .proceed 0 8])

/-- A user has connected as many blogs as there are slots, and is about
to connect another one. -/
def slotsTaken : World :=
  Run.run (Sessions.step programs) (Sessions.World.init .empty)
    (("abcdefghijklmnopqrst".toList.flatMap fun c =>
        connected 1 (String.singleton c) c.toNat)
      ++ [.start 0 (blogTxn 1 "u"), .proceed 0 5, .proceed 0 5])

/-- A blog, its account for another user, and a user without a free place. -/
theorem saveProviderAccount_slots_blog :
    (blogConnected.db.live.sources.rows.map fun r => r.position) = [0]
      ∧ Sound blogConnected.db
      ∧ (∀ s ∈ blogConnected.sessions,
        Refused blogConnected s 9 .providerAccountConnectedElsewhere)
      ∧ ∀ s ∈ slotsTaken.sessions,
        Refused slotsTaken s 9 .chatSourceLimitReached := by
  obtain ⟨hsound, -, -, hrefused⟩ :=
    saveProviderAccount_slots (w := blogConnected) ⟨_, rfl⟩
  obtain ⟨-, -, -, hlimit⟩ :=
    saveProviderAccount_slots (w := slotsTaken) ⟨_, rfl⟩
  refine ⟨by decide, hsound, fun s hs => ?_, fun s hs => ?_⟩
  · have hrow : blogConnected.db.live.connections.rows
        = [(blogTxn 1 "blog").connection.row 1 7] := by decide
    have hsession : ∀ s ∈ blogConnected.sessions.rows,
        s.txn = { blogTxn 2 "blog" with stage := .connection } := by decide
    obtain ⟨-, helsewhere⟩ := hrefused s hs 9
    rw [hsession s hs] at helsewhere
    refine helsewhere rfl
      ⟨(blogTxn 1 "blog").connection.row 1 7, ?_, ⟨rfl, rfl⟩, ?_⟩
    · rw [Table.mem_def, hrow]
      exact List.mem_singleton.mpr rfl
    · decide
  · have hsession : ∀ s ∈ slotsTaken.sessions.rows,
        s.txn = { blogTxn 1 "u" with stage := .position 5 } := by decide +kernel
    obtain ⟨hfull, -⟩ := hlimit s hs 9
    rw [hsession s hs] at hfull
    refine hfull 5 rfl ⟨?_, ?_⟩
    · show ∀ r ∈ slotsTaken.db.live.sources.rows, _
      decide +kernel
    · show ∀ slot < maxSources, ∃ r ∈ slotsTaken.db.live.sources.rows, _
      decide +kernel

end Witness

end StreamBrew.Chat.Slots
