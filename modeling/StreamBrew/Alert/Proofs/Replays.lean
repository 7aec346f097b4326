/-
What a replay keeps of the donation.

# Cutting again

A replay writes the author and the message of the playback it replays with
the expressions that wrote them first. Cutting a message again leaves it
as it is. An author is trimmed before it is cut, so a cut that ends in
spaces is trimmed by the first replay, and only by the first: what is
trimmed then is left alone by all replays after it.

# Chains

A chain of replays starts at the incoming playback of a donation; between
two of its replays any calls may be made. Two facts carry it: what an
incoming playback presents is its donation, cut once, and no call writes
what a row presents.
-/
import Mathlib.Data.List.DropRight
import StreamBrew.Alert.Proofs.Queueing

namespace StreamBrew.Alert

open Relational

variable {draw : Draw} {userID : UserID} {now : Time}

variable {g : Grant} {db db' : Db} {r r' original : Playback}

-- ===================================== texts

/-- The characters of a text, without the spaces around it. -/
def trimmed (s : List Char) : List Char :=
  (s.dropWhile (· = ' ')).rdropWhile (· = ' ')

/-- The characters of an author that are stored. -/
def cutAuthor (s : List Char) : List Char :=
  (trimmed s).take maxAlertAuthorRunes

/-- A text does not begin with a space. -/
def Flush (s : List Char) : Prop := ∀ c ∈ s.head?, c ≠ ' '

theorem Flush.initial {s t : List Char} (h : Flush t) (hs : s <+: t) :
    Flush s := by
  intro c hc
  obtain ⟨rest, rfl⟩ := hs
  cases s with
  | nil => cases hc
  | cons d s => exact h c hc

theorem flush_trimmed (s : List Char) : Flush (trimmed s) := by
  refine Flush.initial ?_ (List.rdropWhile_prefix _ _)
  intro c hc
  have hnot := List.head?_dropWhile_not (· = ' ') s
  rw [Option.mem_def.mp hc] at hnot
  simpa using hnot

/-- Only the end of such a text is trimmed. -/
theorem Flush.trimmed {s : List Char} (h : Flush s) :
    trimmed s = s.rdropWhile (· = ' ') := by
  unfold Alert.trimmed
  cases s with
  | nil => rfl
  | cons c s =>
      have hc := h c rfl
      rw [List.dropWhile_cons_of_neg (by simpa using hc)]

theorem flush_cutAuthor (s : List Char) : Flush (cutAuthor s) :=
  (flush_trimmed s).initial (List.take_prefix _ _)

/-- What was cut is not cut again, but it may be trimmed. -/
theorem cutAuthor_cutAuthor (s : List Char) :
    cutAuthor (cutAuthor s) = (cutAuthor s).rdropWhile (· = ' ') := by
  have hlength : (cutAuthor s).length ≤ maxAlertAuthorRunes :=
    List.length_take_le _ _
  have hprefix := (List.rdropWhile_prefix (· = ' ') (cutAuthor s)).length_le
  show (Alert.trimmed (cutAuthor s)).take maxAlertAuthorRunes = _
  rw [Flush.trimmed (flush_cutAuthor s), List.take_of_length_le]
  exact hprefix.trans hlength

/-- The second time nothing is left to trim. -/
theorem cutAuthor_settled (s : List Char) :
    cutAuthor (cutAuthor (cutAuthor s)) = cutAuthor (cutAuthor s) := by
  rw [cutAuthor_cutAuthor (cutAuthor s), cutAuthor_cutAuthor s,
    List.rdropWhile_idempotent]

/-- A text that ends in a space is the one that is trimmed. -/
theorem cutAuthor_eq_iff (s : List Char) :
    cutAuthor (cutAuthor s) = cutAuthor s
      ↔ (cutAuthor s).getLast? ≠ some ' ' := by
  rw [cutAuthor_cutAuthor, List.rdropWhile_eq_self_iff]
  cases hs : cutAuthor s with
  | nil => simp
  | cons c t =>
      rw [List.getLast?_eq_getLast_of_ne_nil (List.cons_ne_nil c t)]
      simp

-- =================================== authors

theorem presentedAuthor_some (a : String) :
    presentedAuthor (some a)
      = nullifEmpty (String.ofList (cutAuthor a.toList)) := by
  unfold presentedAuthor left
  rw [Option.bind_some]
  congr 3
  exact String.toList_ofList

theorem presentedAuthor_nullifEmpty (s : List Char) :
    presentedAuthor (nullifEmpty (String.ofList s))
      = nullifEmpty (String.ofList (cutAuthor s)) := by
  unfold nullifEmpty
  split
  case isTrue h =>
    rw [String.ofList_eq_empty_iff] at h
    rw [h]
    rfl
  case isFalse => rw [presentedAuthor_some, String.toList_ofList]; rfl

theorem nullifEmpty_inj {s t : List Char} :
    nullifEmpty (String.ofList s) = nullifEmpty (String.ofList t)
      ↔ s = t := by
  constructor
  · intro h
    unfold nullifEmpty at h
    split at h
    case isTrue hs =>
      split at h
      case isTrue ht => exact String.ofList_injective (hs.trans ht.symm)
      case isFalse => cases h
    case isFalse =>
      split at h
      case isTrue => cases h
      case isFalse => exact String.ofList_injective (Option.some.inj h)
  · exact fun h => by rw [h]

/-- The author, cut to its length, ends in a space. -/
def CutAtSpace (author : Option String) : Prop :=
  ∃ a ∈ author,
    (left (trim a) maxAlertAuthorRunes).toList.getLast? = some ' '

theorem presentedAuthor_eq_iff (author : Option String) :
    presentedAuthor (presentedAuthor author) = presentedAuthor author
      ↔ ¬ CutAtSpace author := by
  unfold CutAtSpace
  cases author with
  | none => simp [presentedAuthor]
  | some a =>
      have hcut : (left (trim a) maxAlertAuthorRunes).toList
          = cutAuthor a.toList := by
        unfold left trim
        rw [String.toList_ofList, String.toList_ofList]
        rfl
      rw [presentedAuthor_some, presentedAuthor_nullifEmpty,
        nullifEmpty_inj, cutAuthor_eq_iff]
      simp [hcut]

theorem presentedAuthor_settled (author : Option String) :
    presentedAuthor (presentedAuthor (presentedAuthor author))
      = presentedAuthor (presentedAuthor author) := by
  cases author with
  | none => rfl
  | some a =>
      rw [presentedAuthor_some, presentedAuthor_nullifEmpty,
        presentedAuthor_nullifEmpty, cutAuthor_settled]

theorem presentedMessage_presentedMessage (message : Option String) :
    presentedMessage (presentedMessage message)
      = presentedMessage message := by
  unfold presentedMessage left
  rw [Option.map_map]
  congr 1
  funext text
  rw [Function.comp_apply, String.toList_ofList, List.take_take,
    Nat.min_self]

-- =================================== content

/-- What is stored of it when a playback is queued. -/
def Content.presented (c : Content) : Content :=
  { c with
    author := presentedAuthor c.author
    message := presentedMessage c.message }

/-- The media that a playback presents. -/
structure SameMedia (s : Snapshot) (c : Configuration) : Prop where
  imageAssetID : s.imageAssetID = c.imageAssetID
  soundAssetID : s.soundAssetID = c.soundAssetID

theorem presented_eq_iff (c : Content) :
    c.presented.presented = c.presented ↔ ¬ CutAtSpace c.author := by
  rw [← presentedAuthor_eq_iff]
  constructor
  · exact congrArg Content.author
  · intro h
    unfold Content.presented
    rw [h, presentedMessage_presentedMessage]

theorem presented_settled (c : Content) :
    c.presented.presented.presented = c.presented.presented := by
  unfold Content.presented
  simp only
  rw [presentedAuthor_settled, presentedMessage_presentedMessage,
    presentedMessage_presentedMessage]

/-- An incoming playback presents its donation. -/
def PresentsDonation (db : Db) (r : Playback) : Prop :=
  r.kind = .incoming → ∃ d ∈ db.donations, r.content = d.content.presented

theorem rowRule_presentsDonation : RowRule PresentsDonation where
  donations := by
    intro db db' r h hkeep hkind
    obtain ⟨d, hd, he⟩ := h hkind
    exact ⟨d, hkeep d hd, he⟩
  next := by
    intro db has g r r' hn h hkind
    rw [hn.content]
    exact h (hn.kind ▸ hkind)
  queued := by
    intro db snapshot status hqueued _ draw sequence userID hkind
    cases hqueued with
    | incoming hd => exact ⟨_, hd, rfl⟩
    | test => cases hkind
    | replay => cases hkind

-- =================================== replays

/-- The row that a call inserts and reads again. -/
def insertAndRead (draw : Draw) (userID : UserID) (snapshot : Snapshot)
    (status : PlaybackStatus) (now : Time) (before ensured : Db) :
    Outcome Playback :=
  match ensured.insertPlayback draw userID snapshot status with
  | none => (.error .database, before)
  | some inserted =>
      let db' := boundBacklog userID now inserted
      match db'.playback? draw.playbackID with
      | none => (.error .notFound, db')
      | some playback => (.ok playback, db')

/-- The answered playback is the row that was inserted. -/
theorem insertAndRead_spec {snapshot : Snapshot} {status : PlaybackStatus}
    {before : Db}
    (hok : (insertAndRead draw userID snapshot status now before db).1
      = .ok r') :
    r' ∈ (insertAndRead draw userID snapshot status now before
        db).2.playbacks
      ∧ r'.toSnapshot = snapshot := by
  unfold insertAndRead at hok ⊢
  cases hins : db.insertPlayback draw userID snapshot status with
  | none =>
      rw [hins] at hok
      cases hok
  | some inserted =>
      cases hread : (boundBacklog userID now inserted).playback?
          draw.playbackID with
      | none =>
          simp only [hins, hread] at hok
          cases hok
      | some playback =>
          simp only [hins, hread] at hok ⊢
          cases hok
          obtain ⟨hfresh, playbacks, hadd, rfl⟩ :=
            Db.insertPlayback_eq_some hins
          obtain ⟨hplayback, hid⟩ := Table.find?_eq_some hread
          refine ⟨hplayback, ?_⟩
          unfold boundBacklog at hplayback
          rw [Table.mem_update] at hplayback
          obtain ⟨s, hs, he⟩ := hplayback
          have hsame : r'.playbackID = s.playbackID
              ∧ r'.toSnapshot = s.toSnapshot := by
            split at he
            case isTrue => subst he; exact ⟨rfl, rfl⟩
            case isFalse => subst he; exact ⟨rfl, rfl⟩
          -- no other row has the drawn id
          rcases (Table.mem_insert? hadd).mp hs with hold | rfl
          · exact absurd (hsame.1.symm.trans hid) (hfresh s hold)
          · exact hsame.2

/-- What a replay has queued. -/
theorem replay_spec {sourcePlaybackID : PlaybackID}
    (hok : (replay userID sourcePlaybackID now draw db).1 = .ok r') :
    ∃ source ∈ db.playbacks, source.playbackID = sourcePlaybackID
      ∧ r' ∈ (replay userID sourcePlaybackID now draw db).2.playbacks
      ∧ r'.kind = .replay ∧ r'.content = source.content.presented
      ∧ ∃ c, (ensureConfiguration userID db).configurations.get? userID
          = some c ∧ SameMedia r'.toSnapshot c := by
  unfold replay at hok ⊢
  simp only at hok ⊢
  cases hsource : (ensureConfiguration userID db).playbacks.find? fun r =>
      r.playbackID = sourcePlaybackID ∧ r.userID = userID
        ∧ r.donationID ≠ none ∧ r.status.Terminal with
  | none =>
      simp only [hsource] at hok
      cases hok
  | some source =>
      cases hc : (ensureConfiguration userID db).configurations.get?
          userID with
      | none =>
          simp only [hsource, hc] at hok
          cases hok
      | some c =>
          simp only [hsource, hc] at hok ⊢
          obtain ⟨hmem, hsourceID, -⟩ := Table.find?_eq_some hsource
          obtain ⟨hrow, hsnapshot⟩ := insertAndRead_spec hok
          exact ⟨source, hmem, hsourceID, hrow,
            congrArg Snapshot.kind hsnapshot,
            congrArg Snapshot.content hsnapshot, c, rfl,
            congrArg Snapshot.imageAssetID hsnapshot,
            congrArg Snapshot.soundAssetID hsnapshot⟩

/-- A playback of the chain of replays that starts at an incoming playback,
in a state of some run. -/
inductive Chain (first : Playback) : Db → Playback → Prop
  | incoming {state : Db} (hstate : Reachable state)
      (hfirst : first ∈ state.playbacks) (hkind : first.kind = .incoming) :
      Chain first state first
  /-- any call leaves the playback in the chain -/
  | call {state : Db} {s s' : Playback} (h : Chain first state s)
      (a : Action) (hs' : s' ∈ (apply state a).playbacks)
      (hsame : s'.queueSequence = s.queueSequence) :
      Chain first (apply state a) s'
  | replay {state : Db} {s s' : Playback} (h : Chain first state s)
      (userID : UserID) (now : Time) (draw : Draw)
      (hok : (replay userID s.playbackID now draw state).1 = .ok s') :
      Chain first (replay userID s.playbackID now draw state).2 s'

/-- What is known of a playback of a chain: it presents the content of the
donation, cut once, or cut twice when it is a replay. -/
structure Follows (d : Donation) (db : Db) (r : Playback) : Prop where
  reachable : Reachable db
  mem : r ∈ db.playbacks
  donation : d ∈ db.donations
  content : r.kind = .incoming ∧ r.content = d.content.presented
    ∨ r.kind = .replay ∧ r.content = d.content.presented.presented

/-- The replay of such a playback is one. -/
theorem Follows.replay {d : Donation} (h : Follows d db r)
    (hok : (replay userID r.playbackID now draw db).1 = .ok r') :
    Follows d (Alert.replay userID r.playbackID now draw db).2 r'
      ∧ r'.kind = .replay
      ∧ r'.content = d.content.presented.presented := by
  have hi := h.reachable.inv
  obtain ⟨source, hsource, hid, hmem, hkind, hcontent, -⟩ := replay_spec hok
  rw [hi.ids source hsource r h.mem hid] at hcontent
  have htwice : r'.content = d.content.presented.presented := by
    rcases h.content with ⟨-, he⟩ | ⟨-, he⟩
    · rw [hcontent, he]
    · rw [hcontent, he, presented_settled]
  exact ⟨⟨h.reachable.snoc (.replay userID r.playbackID now draw), hmem,
    (apply_steps hi (.replay userID r.playbackID now draw)).donations
      h.donation, Or.inr ⟨hkind, htwice⟩⟩, hkind, htwice⟩

/-- So it is along the chain. -/
theorem Chain.follows (h : Chain original db r) :
    ∃ d, original.content = d.content.presented ∧ Follows d db r := by
  induction h with
  | incoming hdb hr hkind =>
      obtain ⟨d, hd, he⟩ :=
        rowRule_presentsDonation.reachable hdb original hr hkind
      exact ⟨d, he, hdb, hr, hd, Or.inl ⟨hkind, he⟩⟩
  | @call db r r' _ a hr' hsame ih =>
      obtain ⟨d, horiginal, hf⟩ := ih
      have hi := hf.reachable.inv
      have hsteps := apply_steps hi a
      have hkept : Settled (fun s => s.kind = r.kind
          ∧ s.content = r.content) r.queueSequence db := by
        refine ⟨hi.bound r hf.mem, fun s hs hq => ?_⟩
        rw [Table.eq_of_key hs hf.mem hq]
        exact ⟨rfl, rfl⟩
      obtain ⟨hkind, hcontent⟩ := (hkept.steps hi (fun _ _ _ hs hn =>
        ⟨hn.kind.trans hs.1, hn.content.trans hs.2⟩) hsteps).2 r' hr' hsame
      refine ⟨d, horiginal, hf.reachable.snoc a, hr',
        hsteps.donations hf.donation, ?_⟩
      rw [hkind, hcontent]
      exact hf.content
  | replay _ userID now draw hok ih =>
      obtain ⟨d, horiginal, hf⟩ := ih
      exact ⟨d, horiginal, (hf.replay hok).1⟩

/-- What the replay of a playback of the chain has to do with the first
one: its content is that of the first one, cut again. -/
theorem Chain.replayed {source replayed : Playback}
    (h : Chain original db source)
    (hok : (Alert.replay userID source.playbackID now draw
      db).1 = .ok replayed) {donation : Donation}
    (hd : donation ∈ db.donations)
    (hid : original.donationID = some donation.donationID) :
    original.content = donation.content.presented
      ∧ replayed.content = donation.content.presented.presented
      ∧ (source.content = donation.content.presented
        ∨ source.content = donation.content.presented.presented) := by
  obtain ⟨d, horiginal, hf⟩ := h.follows
  have hsame : d = donation := by
    refine Table.eq_of_key hf.donation hd ?_
    have hdonation := congrArg Content.donationID horiginal
    exact Option.some.inj (hdonation.symm.trans hid)
  subst hsame
  refine ⟨horiginal, (hf.replay hok).2.2, ?_⟩
  rcases hf.content with ⟨-, he⟩ | ⟨-, he⟩
  · exact Or.inl he
  · exact Or.inr he

-- ==================================== result

/-- A replay has the content of the playback it replays and of the
incoming one exactly when the author of the donation, trimmed and cut to
its length, does not end in a space. Its media are those of the
configuration. -/
theorem replay_content_iff {source replayed : Playback}
    (h : Chain original db source) {userID : UserID} {now : Time}
    {draw : Draw} (hok : (replay userID source.playbackID now draw db).1
      = .ok replayed) {donation : Donation} (hd : donation ∈ db.donations)
    (hid : original.donationID = some donation.donationID) :
    (replayed.content = source.content
        ∧ replayed.content = original.content
      ↔ ¬ CutAtSpace donation.author)
      ∧ ∃ c, (ensureConfiguration userID db).configurations.get? userID
          = some c ∧ SameMedia replayed.toSnapshot c := by
  obtain ⟨horiginal, hreplayed, hsource⟩ := h.replayed hok hd hid
  obtain ⟨-, -, -, -, -, -, c, hc, hmedia⟩ := replay_spec hok
  refine ⟨?_, c, hc, hmedia⟩
  have hauthor : donation.author = donation.content.author := rfl
  rw [hauthor, ← presented_eq_iff, hreplayed, horiginal]
  constructor
  · exact fun hsame => hsame.2
  · intro hsame
    rw [hsame] at hsource ⊢
    rcases hsource with he | he <;> exact ⟨he.symm, rfl⟩

/-- A donation of some author arrives, and its playback is skipped. -/
def donatedRun (author : Option String) : List Action :=
  [.updateSettings 1
      { enabled := true, enabledSources := ["streamlabs"]
        displayDurationMS := 7000, soundVolume := 80, ttsEnabled := false
        ttsVoice := "ru", ttsVolume := 80, accentColor := "#f59e0b"
        imageAssetID := none, soundAssetID := none },
    .insertDonation
      { donationID := 3, source := .streamlabs, sourceDonationID := "1"
        userID := 1, author, message := none, amount := 10 ^ 18
        currency := "USD", occurredAt := 0 },
    .enqueueIncoming 1 3 .streamlabs 0 { playbackID := 7, gap := 0 },
    .skip 1 0]

/-- It can then be replayed. -/
theorem donatedRun_replayed (author : Option String) :
    let db := Run.run apply Db.init (donatedRun author)
    ∃ original replayed, Chain original db original
      ∧ original.donationID = some 3 ∧ original.playbackID = 7
      ∧ (∃ donation ∈ db.donations, donation.donationID = 3
        ∧ donation.author = author)
      ∧ (replay 1 7 0 { playbackID := 8, gap := 0 } db).1
        = .ok replayed := by
  intro db
  obtain ⟨original, horiginal, hfields⟩ := Option.map_eq_some_iff.mp
    (show (db.playback? 7).map (fun r => (r.kind, r.donationID))
      = some (.incoming, some 3) from rfl)
  obtain ⟨hmem, hid⟩ := Table.find?_eq_some horiginal
  obtain ⟨donation, hdonation, hauthor⟩ := Option.map_eq_some_iff.mp
    (show (db.donations.get? 3).map Donation.author = some author from rfl)
  exact ⟨original, _, .incoming ⟨_, rfl⟩ hmem (congrArg Prod.fst hfields),
    congrArg Prod.snd hfields, hid,
    ⟨donation, Table.mem_of_get? hdonation, Table.key_of_get? hdonation,
      hauthor⟩, rfl⟩

/-- An author of more than two hundred characters, with a space right
behind the cut. -/
def longAuthor : List Char := List.replicate 200 'a' ++ [' ', 'b']

/-- Such an author is cut once, and replayed as it was cut. -/
theorem replay_content_cut :
    ∃ original replayed : Playback,
      (replay 1 7 0 { playbackID := 8, gap := 0 }
        (Run.run apply Db.init
          (donatedRun (some (String.ofList longAuthor))))).1 = .ok replayed
      ∧ replayed.content = original.content := by
  obtain ⟨original, replayed, hchain, hdonation, hid,
    ⟨donation, hd, hdid, hauthor⟩, hok⟩ :=
    donatedRun_replayed (some (String.ofList longAuthor))
  have hcut : ¬ CutAtSpace donation.author := by
    rw [hauthor]
    rintro ⟨a, ha, hspace⟩
    obtain rfl := Option.some.inj ha
    unfold left trim at hspace
    rw [String.toList_ofList, String.toList_ofList, String.toList_ofList]
      at hspace
    exact absurd hspace (by decide)
  rw [← hdid] at hdonation
  rw [← hid] at hok
  refine ⟨original, replayed, hid ▸ hok, ?_⟩
  exact ((replay_content_iff hchain hok hd hdonation).1.mpr hcut).2

/-- An author whose two hundredth character is a space. -/
def spacedAuthor : List Char := List.replicate 199 'a' ++ [' ', 'b']

/-- Such an author loses the space in the replay. -/
theorem replay_spaced :
    ∃ original replayed : Playback,
      Chain original (Run.run apply Db.init
          (donatedRun (some (String.ofList spacedAuthor)))) original
        ∧ (replay 1 original.playbackID 0 { playbackID := 8, gap := 0 }
          (Run.run apply Db.init
            (donatedRun (some (String.ofList spacedAuthor))))).1
          = .ok replayed
        ∧ replayed.content ≠ original.content := by
  obtain ⟨original, replayed, hchain, hdonation, hid,
    ⟨donation, hd, hdid, hauthor⟩, hok⟩ :=
    donatedRun_replayed (some (String.ofList spacedAuthor))
  have hcut : CutAtSpace donation.content.author := by
    refine ⟨_, hauthor, ?_⟩
    unfold left trim
    rw [String.toList_ofList, String.toList_ofList, String.toList_ofList]
    decide
  rw [← hdid] at hdonation
  rw [← hid] at hok
  refine ⟨original, replayed, hchain, hok, ?_⟩
  obtain ⟨horiginal, hreplayed, -⟩ := hchain.replayed hok hd hdonation
  rw [hreplayed, horiginal]
  exact fun h => (presented_eq_iff _).mp h hcut

end StreamBrew.Alert
